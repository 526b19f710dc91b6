import VectorGuard.Core.Advice
import VectorGuard.Theory.RuleExpiry
import VectorGuard.Theory.StagedNames

/-!
# Staging

When staging loses a proposal.

A proposal gets a file of its own only as far as its id is its own: a clock
reading and a rule name in which every character a path could trip over was
replaced by the same dash. Writing goes over whatever has the name already. So
two rules of one answer whose names fall together, staged at the same reading,
are one file with the second rule in it, and so is a rule staged where a clock
was set back to a reading it has had.

A directory that is configured as the empty string is never found, though the files go
to the working directory. Nothing else is lost: the ids of a run are new and distinct
and the directory has a name exactly when every call adds a file and all are found
afterwards.

## Main definitions

* `AllStaged`: Every call of a sequence succeeds.
* `AddsOne`: A call adds one file and changes none.
* `ListedOnce`, `HeldOnce`: The proposals are in the pending and in the approved
  directory afterwards, each once.

## Theorems

* `writeRule_cases`, `stage_cases`: What a call does.
* `eachAddsOne_iff`: When every call adds a file.
* `keepsEvery_iff`: When staging loses nothing.
-/

namespace VectorGuard

open FileTree

/-- Every call of a sequence succeeds, each at its clock reading. -/
def AllStaged (call : StageCall) : FileTree → List (Nat × Rule) → Prop
  | _, [] => True
  | fs, (now, rule) :: rest =>
    (∃ id, (call fs now rule).2 = .ok id) ∧ AllStaged call (call fs now rule).1 rest

/-- One new file, and every file that was there as it was. -/
structure AddsOne (fs fs' : FileTree) : Prop where
  added : ∃ path inode, fs.entry path = none ∧ fs'.entry path = some (.file inode) ∧
    ∀ q inode', q ≠ path → fs'.entry q = some (.file inode') → fs.entry q = some (.file inode')
  kept : ∀ q inode, fs.entry q = some (.file inode) →
    fs'.entry q = some (.file inode) ∧ fs'.data inode = fs.data inode

/-- Every call of a sequence adds one file. -/
def EachAddsOne (call : StageCall) : FileTree → List (Nat × Rule) → Prop
  | _, [] => True
  | fs, (now, rule) :: rest =>
    AddsOne fs (call fs now rule).1 ∧ EachAddsOne call (call fs now rule).1 rest

/-- The id a staged rule gets. -/
def stagedId (c : Nat × Rule) : String := makeId c.1 c.2.name

/-- The ids of a sequence are distinct, and once the directory is there none of
    them has a file. -/
def NewIds (dir : String) (file : String → String) (fs : FileTree) (calls : List (Nat × Rule)) :
    Prop :=
  (calls.map stagedId).Nodup ∧
    ∀ c ∈ calls, (fs.createDirAll dir).1.lookup (file (stagedId c)) = none

variable (toText : RuleSet → Option String) (fromStr : String → Option RuleSet)

/-- Every staged rule is listed under its id, and nothing else is. -/
def ListedOnce (store : ApprovalStore) (fs : FileTree) (calls : List (Nat × Rule)) : Prop :=
  ∀ c ∈ calls, ∃ items, store.listPending fromStr fs = .ok items ∧
    (items.filter (fun i => i.id = stagedId c)).map PendingItem.rule = [c.2]

/-- Every staged rule is the one rule of the one file of its name. -/
def HeldOnce (store : ApprovalStore) (fs : FileTree) (calls : List (Nat × Rule)) : Prop :=
  ∀ c ∈ calls, ∃ entries, rulesListing fs store.approvedDir = some entries ∧
    (entries.reduceOption.filter
      (fun e => e.fileName = bytes ("ai-approved-" ++ stagedId c ++ ".toml"))).map
        (fun e => e.rules fromStr) = [[c.2]]

section Generic

variable {toText}
variable {dir : String} {name : String → String} {fs fs' : FileTree}

/-- What a successful call does: the directory is there, and the child of it that
    has the name holds the rule. -/
structure Staged (toText : RuleSet → Option String) (fs fs' : FileTree) (dir name : String)
    (c : Nat × Rule) (path : Path) (inode : Nat) (body : String) : Prop where
  text : toText ⟨[c.2]⟩ = some body
  place : (fs.createDirAll dir).1.place dir = some path
  isDir : (fs.createDirAll dir).1.entry path = some .dir
  written : Written (fs.createDirAll dir).1 fs' c.1 (ruleHeader ++ body) (path ++ [name]) inode

variable (toText) in
/-- The call that stages into a directory. -/
abbrev stageTo (dir : String) (name : String → String) : StageCall :=
  fun fs now rule => ApprovalStore.stage toText fs now dir (fun id => joinPath dir (name id)) rule

variable (toText) in
/-- A rule is written, or nothing is. -/
theorem writeRule_cases (fs : FileTree) (now : Nat) (p : String) (rule : Rule) :
    (∃ e, writeRule toText fs now p rule = (fs, .error e)) ∨
      ∃ fs' body path inode, writeRule toText fs now p rule = (fs', .ok ()) ∧
        toText ⟨[rule]⟩ = some body ∧ fs.resolve p = some path ∧
        Written fs fs' now (ruleHeader ++ body) path inode := by
  unfold writeRule
  cases toText ⟨[rule]⟩ with
  | none => exact .inl ⟨_, rfl⟩
  | some body =>
      cases hwrite : fs.write now p (ruleHeader ++ body) with
      | mk fs' ok =>
          simp only
          rw [hwrite]
          cases ok with
          | false =>
              rw [write_refused hwrite]
              exact .inl ⟨_, rfl⟩
          | true =>
              rcases written_of_write hwrite with ⟨path, inode, hpath, hwritten⟩
              exact .inr ⟨fs', body, path, inode, rfl, rfl, hpath, hwritten⟩

variable (toText) in
/-- A call writes the child that has the name, or creates directories at most. -/
theorem stage_cases (fs : FileTree) {c : Nat × Rule} (hname : IsName (name (stagedId c))) :
    (∃ e, stageTo toText dir name fs c.1 c.2 = ((fs.createDirAll dir).1, .error e)) ∨
      ∃ fs' path inode body, stageTo toText dir name fs c.1 c.2 = (fs', .ok (stagedId c)) ∧
        Staged toText fs fs' dir (name (stagedId c)) c path inode body := by
  unfold stageTo ApprovalStore.stage
  cases hdirs : fs.createDirAll dir with
  | mk fs₁ ok =>
      cases ok with
      | false => exact .inl ⟨_, rfl⟩
      | true =>
          have hfs₁ : (fs.createDirAll dir).1 = fs₁ := by rw [hdirs]
          have hcases := writeRule_cases toText fs₁ c.1 (joinPath dir (name (stagedId c))) c.2
          unfold stagedId at hcases hname ⊢
          -- The rule's own path leads to the child of the directory that has its name.
          rcases hcases with ⟨e, hrule⟩ | ⟨fs', body, q, inode, hrule, hbody, hq, hwritten⟩
          · simp only
            rw [hrule]
            exact .inl ⟨_, rfl⟩
          · rcases eq_child_of_resolve hname hq with ⟨path, hpath, hdir, rfl⟩
            simp only
            rw [hrule]
            rw [← hfs₁] at hpath hdir hwritten
            exact .inr ⟨fs', path, inode, body, rfl, hbody, hpath, hdir, hwritten⟩

theorem lookup_joinPath {name : String} {path : Path} (hname : IsName name)
    (hpath : fs.place dir = some path) (hdir : fs.entry path = some .dir) :
    fs.lookup (joinPath dir name) = fs.entry (path ++ [name]) :=
  FileTree.lookup_of_resolve (resolve_joinPath_of_dir hname hpath hdir)

section Call

variable {n : String} {c : Nat × Rule} {path : Path} {inode : Nat} {body : String}

theorem Staged.place_after (h : Staged toText fs fs' dir n c path inode body) :
    fs'.place dir = some path :=
  h.written.place h.place

theorem Staged.isDir_after (h : Staged toText fs fs' dir n c path inode body) :
    fs'.entry path = some .dir :=
  (h.written.kept_dir path).mpr h.isDir

/-- Creating the directory again changes nothing. -/
theorem Staged.created (h : Staged toText fs fs' dir n c path inode body) :
    fs'.createDirAll dir = (fs', true) :=
  createDirAll_of_place h.place_after h.isDir_after

/-- A call adds a file exactly when the name is not there. -/
theorem Staged.addsOne_iff (h : Staged toText fs fs' dir n c path inode body) :
    AddsOne fs fs' ↔ (fs.createDirAll dir).1.entry (path ++ [n]) = none := by
  have hmore := moreDirs_createDirAll fs dir
  constructor
  · intro hadds
    rcases hadds.added with ⟨q, inode', hnone, hfile, _⟩
    rcases h.written.before with ⟨hnew, _⟩ | hold
    · exact hnew
    · -- The file was there, so the one that was added is another one, which nothing added.
      have hne : q ≠ path ++ [n] := by
        intro heq
        rw [heq, hmore.file _ inode hold] at hnone
        exact absurd hnone (by simp)
      rw [h.written.entry_of_ne q hne] at hfile
      rw [hmore.file q inode' hfile] at hnone
      exact absurd hnone (by simp)
  · intro hnew
    have hinode : inode = fs.next := by
      rcases h.written.before with ⟨_, hnext⟩ | hold
      · rw [hnext, hmore.next]
      · rw [hnew] at hold
        exact absurd hold (by simp)
    have hnone : fs.entry (path ++ [n]) = none := by
      by_contra hsome
      rcases Option.ne_none_iff_exists'.mp hsome with ⟨e, he⟩
      rw [hmore.kept _ e he] at hnew
      exact absurd hnew (by simp)
    refine ⟨⟨path ++ [n], inode, hnone, h.written.entry_self, fun q inode' hq hfile => ?_⟩,
      fun q inode' hfile => ?_⟩
    · rw [h.written.entry_of_ne q hq] at hfile
      exact hmore.file q inode' hfile
    · have hq : q ≠ path ++ [n] := by
        intro heq
        rw [heq, hnone] at hfile
        exact absurd hfile (by simp)
      refine ⟨(h.written.entry_of_ne q hq).trans (hmore.kept q _ hfile), ?_⟩
      -- Every inode in use is older than the one that was taken.
      have hlt : inode' < fs.next := fs.inode_lt_of_entry hfile
      rw [h.written.data, hmore.data, Function.update_of_ne (by omega)]

theorem Staged.wellFormed (h : Staged toText fs fs' dir n c path inode body)
    (hwell : WellFormed fs) : WellFormed fs' :=
  (hwell.createDirAll dir).written h.written h.isDir

/-- The ids of a sequence are new when the first one is, and the others are once
    it has its file. -/
theorem Staged.newIds_cons (hname : ∀ c, IsName (name (stagedId c))) (hinj : name.Injective)
    (h : Staged toText fs fs' dir (name (stagedId c)) c path inode body)
    (rest : List (Nat × Rule)) :
    NewIds dir (fun id => joinPath dir (name id)) fs (c :: rest) ↔
      (fs.createDirAll dir).1.entry (path ++ [name (stagedId c)]) = none ∧
        NewIds dir (fun id => joinPath dir (name id)) fs' rest := by
  -- The names before and after the call, which differ at the name of the call alone.
  have hbefore : ∀ c', (fs.createDirAll dir).1.lookup (joinPath dir (name (stagedId c'))) =
      (fs.createDirAll dir).1.entry (path ++ [name (stagedId c')]) :=
    fun c' => lookup_joinPath (hname c') h.place h.isDir
  have hafter : ∀ c', (fs'.createDirAll dir).1.lookup (joinPath dir (name (stagedId c'))) =
      fs'.entry (path ++ [name (stagedId c')]) := by
    intro c'
    rw [h.created]
    exact lookup_joinPath (hname c') h.place_after h.isDir_after
  have hother : ∀ c', stagedId c' ≠ stagedId c → fs'.entry (path ++ [name (stagedId c')]) =
      (fs.createDirAll dir).1.entry (path ++ [name (stagedId c')]) := by
    intro c' hne
    refine h.written.entry_of_ne _ (fun heq => hne (hinj ?_))
    simpa using heq
  unfold NewIds
  simp only [hbefore, hafter, List.map_cons, List.nodup_cons, List.mem_cons, forall_eq_or_imp]
  constructor
  · rintro ⟨⟨hfresh, hnodup⟩, hself, hnew⟩
    refine ⟨hself, hnodup, fun c' hc' => ?_⟩
    rw [hother c' (fun heq => hfresh (heq ▸ List.mem_map_of_mem hc'))]
    exact hnew c' hc'
  · rintro ⟨hself, hnodup, hnew⟩
    -- An id of a later call that is the id of this one has its file by now.
    have hne : ∀ c' ∈ rest, stagedId c' ≠ stagedId c := by
      intro c' hc' heq
      have hnone := hnew c' hc'
      rw [heq, h.written.entry_self] at hnone
      exact absurd hnone (by simp)
    refine ⟨⟨fun hmem => ?_, hnodup⟩, hself, fun c' hc' => ?_⟩
    · rcases List.mem_map.mp hmem with ⟨c', hc', heq⟩
      exact hne c' hc' heq
    · rw [← hother c' (hne c' hc')]
      exact hnew c' hc'

end Call

/-- What a call that succeeds leaves is what it returns. -/
theorem exists_staged (hname : ∀ c, IsName (name (stagedId c))) {now : Nat} {rule : Rule}
    (hok : ∃ id, (stageTo toText dir name fs now rule).2 = .ok id) :
    ∃ path inode body, Staged toText fs (stageTo toText dir name fs now rule).1 dir
      (name (stagedId (now, rule))) (now, rule) path inode body := by
  rcases hok with ⟨id, hid⟩
  rcases stage_cases toText fs (hname (now, rule)) with ⟨e, hstage⟩ |
    ⟨fs', path, inode, body, hstage, hstaged⟩
  · rw [hstage] at hid
    exact absurd hid (by simp)
  · refine ⟨path, inode, body, ?_⟩
    rw [hstage]
    exact hstaged

/-- Every call adds a file exactly when the ids are new. -/
theorem eachAddsOne_iff (hname : ∀ c, IsName (name (stagedId c))) (hinj : name.Injective)
    (calls : List (Nat × Rule)) (hok : AllStaged (stageTo toText dir name) fs calls) :
    EachAddsOne (stageTo toText dir name) fs calls ↔
      NewIds dir (fun id => joinPath dir (name id)) fs calls := by
  induction calls generalizing fs with
  | nil => exact ⟨fun _ => ⟨List.nodup_nil, by simp⟩, fun _ => trivial⟩
  | cons c rest ih =>
      rcases exists_staged hname hok.1 with ⟨path, inode, body, hstaged⟩
      rw [hstaged.newIds_cons hname hinj, ← hstaged.addsOne_iff, ← ih hok.2]
      exact Iff.rfl

/-- The file of a staged rule is in the directory, and holds the rule. -/
structure HoldsRule (toText : RuleSet → Option String) (fs : FileTree) (dir name : String)
    (c : Nat × Rule) (path : Path) (inode : Nat) (body : String) : Prop where
  text : toText ⟨[c.2]⟩ = some body
  place : fs.place dir = some path
  isDir : fs.entry path = some .dir
  entry : fs.entry (path ++ [name]) = some (.file inode)
  content : (fs.data inode).content = ruleHeader ++ body

section Call

variable {n : String} {c : Nat × Rule} {path : Path} {inode : Nat} {body : String}

theorem Staged.holds (h : Staged toText fs fs' dir n c path inode body) :
    HoldsRule toText fs' dir n c path inode body where
  text := h.text
  place := h.place_after
  isDir := h.isDir_after
  entry := h.written.entry_self
  content := by rw [h.written.data, Function.update_self]

/-- A call that adds a file leaves the others. -/
theorem HoldsRule.next {n' : String} {c' : Nat × Rule} {path' : Path} {inode' : Nat} {body' : String}
    (h : HoldsRule toText fs dir n c path inode body)
    (hstaged : Staged toText fs fs' dir n' c' path' inode' body') (hadds : AddsOne fs fs') :
    HoldsRule toText fs' dir n c path inode body where
  text := h.text
  place := hstaged.written.place ((moreDirs_createDirAll fs dir).place h.place)
  isDir := (hstaged.written.kept_dir path).mpr ((moreDirs_createDirAll fs dir).kept path _ h.isDir)
  entry := (hadds.kept _ inode h.entry).1
  content := by rw [(hadds.kept _ inode h.entry).2, h.content]

end Call

theorem HoldsRule.stageRules (hname : ∀ c, IsName (name (stagedId c))) {n : String} {c : Nat × Rule}
    {path : Path} {inode : Nat} {body : String} (calls : List (Nat × Rule))
    (hok : AllStaged (stageTo toText dir name) fs calls)
    (hadds : EachAddsOne (stageTo toText dir name) fs calls)
    (h : HoldsRule toText fs dir n c path inode body) :
    HoldsRule toText (stageRules (stageTo toText dir name) fs calls) dir n c path inode body := by
  induction calls generalizing fs with
  | nil => exact h
  | cons c' rest ih =>
      rcases exists_staged hname hok.1 with ⟨_, _, _, hstaged⟩
      exact ih hok.2 hadds.2 (h.next hstaged hadds.1)

/-- When every call adds a file, all of them are there in the end. -/
theorem holds_stageRules (hname : ∀ c, IsName (name (stagedId c))) (calls : List (Nat × Rule))
    (hok : AllStaged (stageTo toText dir name) fs calls)
    (hadds : EachAddsOne (stageTo toText dir name) fs calls) :
    ∀ c ∈ calls, ∃ path inode body, HoldsRule toText (stageRules (stageTo toText dir name) fs calls)
      dir (name (stagedId c)) c path inode body := by
  induction calls generalizing fs with
  | nil => exact fun c hc => absurd hc List.not_mem_nil
  | cons c rest ih =>
      intro c' hc'
      rcases List.mem_cons.mp hc' with rfl | hrest
      · rcases exists_staged hname hok.1 with ⟨path, inode, body, hstaged⟩
        exact ⟨path, inode, body, hstaged.holds.stageRules hname rest hok.2 hadds.2⟩
      · exact ih hok.2 hadds.2 c' hrest

/-- What finds every rule that is held in a directory with a name, and none in one
    without, finds what a sequence stages exactly when the ids are new and the directory
    has a name. -/
theorem eachFound_iff {Found : Nat × Rule → Prop} (hname : ∀ c, IsName (name (stagedId c)))
    (hinj : name.Injective) (calls : List (Nat × Rule))
    (hok : AllStaged (stageTo toText dir name) fs calls)
    (hfound : dir ≠ "" → ∀ c path inode body,
      HoldsRule toText (stageRules (stageTo toText dir name) fs calls) dir (name (stagedId c)) c
        path inode body → Found c)
    (hnameless : dir = "" → ∀ c, ¬ Found c) :
    EachAddsOne (stageTo toText dir name) fs calls ∧ (∀ c ∈ calls, Found c) ↔
      NewIds dir (fun id => joinPath dir (name id)) fs calls ∧ (calls = [] ∨ dir ≠ "") := by
  rw [← eachAddsOne_iff hname hinj calls hok]
  refine and_congr_right (fun hadds => ⟨fun hall => ?_, fun hdir c hc => ?_⟩)
  · rcases List.eq_nil_or_concat calls with hnil | ⟨front, c, rfl⟩
    · exact .inl hnil
    · exact .inr (fun hempty => hnameless hempty c (hall c (by simp)))
  · have hne := hdir.resolve_left (List.ne_nil_of_mem hc)
    rcases holds_stageRules hname calls hok hadds c hc with ⟨path, inode, body, h⟩
    exact hfound hne c path inode body h

end Generic

/-! ### What is found afterwards -/

section Found

variable {toText fromStr} {fs : FileTree} {path : Path} {inode : Nat} {body : String}
  {c : Nat × Rule}

theorem extension_toml {id : String} {content : Option String} (hid : id ≠ "") :
    DirEntry.extension ⟨bytes (id ++ ".toml"), content⟩ = some (bytes "toml") := by
  have hsplit : id ++ ".toml" = id ++ "." ++ "toml" := by
    rw [String.append_assoc]
    rfl
  rw [hsplit]
  exact extension_append hid (by decide)

theorem fileStem_toml {id : String} (hid : id ≠ "") : fileStem (id ++ ".toml") = id := by
  have hsplit : id ++ ".toml" = id ++ "." ++ "toml" := by
    rw [String.append_assoc]
    rfl
  rw [hsplit]
  exact fileStem_append hid (by decide)

theorem stagedId_ne_empty (c : Nat × Rule) : stagedId c ≠ "" := by
  intro hempty
  have hlength := congrArg String.length hempty
  unfold stagedId makeId at hlength
  rw [String.length_append, String.length_append] at hlength
  have hdash : "-".length = 1 := rfl
  have hnil : "".length = 0 := rfl
  omega

/-- An item is listed under the stem of its name. -/
theorem id_pendingItem {store : ApprovalStore} {name : String} {e : Entry} {item : PendingItem}
    (h : store.pendingItem fromStr fs name e = some item) :
    item.id = fileStem name ∧ name = fileStem name ++ ".toml" := by
  unfold ApprovalStore.pendingItem at h
  split at h
  · next hext =>
      refine ⟨?_, eq_of_extension hext⟩
      split at h
      · exact absurd h (by simp)
      · split at h
        · rw [← Option.some.inj h]
        · exact absurd h (by simp)
  · exact absurd h (by simp)

/-- The items with an id are those of the entry with its name. -/
theorem filter_pendingItem (store : ApprovalStore) (entries : List (String × Entry)) {id : String}
    (hid : id ≠ "") :
    (entries.filterMap (fun e => store.pendingItem fromStr fs e.1 e.2)).filter (fun i => i.id = id) =
      (entries.filter (fun e => e.1 = id ++ ".toml")).filterMap
        (fun e => store.pendingItem fromStr fs e.1 e.2) := by
  rw [List.filter_filterMap, List.filterMap_filter]
  refine List.filterMap_congr (fun e _ => ?_)
  cases hitem : store.pendingItem fromStr fs e.1 e.2 with
  | none => simp
  | some item =>
      rcases id_pendingItem hitem with ⟨hstem, hname⟩
      have hiff : item.id = id ↔ e.1 = id ++ ".toml" := by
        constructor
        · intro heq
          rw [hname, ← hstem, heq]
        · intro heq
          rw [hstem, heq]
          exact fileStem_toml hid
      simp only [hiff, Option.filter_some, decide_eq_true_eq]

theorem listPending_of_readDir {store : ApprovalStore} {entries : List (String × Entry)}
    (hpath : fs.resolve store.pendingDir = some path) (hdir : fs.entry path = some .dir)
    (hentries : fs.readDir path = some entries) :
    store.listPending fromStr fs =
      .ok ((entries.filterMap (fun e => store.pendingItem fromStr fs e.1 e.2)).mergeSort
        (fun i j => i.createdAt ≤ j.createdAt)) := by
  have hlookup : fs.lookup store.pendingDir = some .dir :=
    (FileTree.lookup_of_resolve hpath).trans hdir
  unfold ApprovalStore.listPending
  rw [hlookup, hpath, Option.bind_some, hentries]

/-- The empty string is no directory that could be listed. -/
theorem listPending_of_empty {store : ApprovalStore} (hempty : store.pendingDir = "") :
    store.listPending fromStr fs = .ok [] := by
  unfold ApprovalStore.listPending
  rw [hempty]
  rfl

theorem rulesListing_empty : rulesListing fs "" = none := rfl

/-- A proposal whose file is in the pending directory is listed once. -/
theorem HoldsRule.listedOnce {store : ApprovalStore} (hne : store.pendingDir ≠ "")
    (hround : ∀ rule text, toText ⟨[rule]⟩ = some text → fromStr (ruleHeader ++ text) = some ⟨[rule]⟩)
    (h : HoldsRule toText fs store.pendingDir (stagedId c ++ ".toml") c path inode body) :
    ∃ items, store.listPending fromStr fs = .ok items ∧
      (items.filter (fun i => i.id = stagedId c)).map PendingItem.rule = [c.2] := by
  rcases readDir_isSome h.isDir with ⟨entries, hentries⟩
  have hid := stagedId_ne_empty c
  have hpath : fs.resolve store.pendingDir = some path :=
    (fs.place_of_ne_empty hne).symm.trans h.place
  refine ⟨_, listPending_of_readDir hpath h.isDir hentries, ?_⟩
  have hitem : store.pendingItem fromStr fs (stagedId c ++ ".toml") (.file inode) =
      some ⟨stagedId c, joinPath store.pendingDir (stagedId c ++ ".toml"), c.2,
        (fs.data inode).mtime⟩ := by
    unfold ApprovalStore.pendingItem
    rw [if_pos (extension_toml hid)]
    simp only [h.content, hround c.2 body h.text]
    rw [fileStem_toml hid]
  -- Sorting moves the items and changes none.
  have hperm := (List.mergeSort_perm (entries.filterMap
    (fun e => store.pendingItem fromStr fs e.1 e.2)) (fun i j => i.createdAt ≤ j.createdAt)).filter
      (fun i => i.id = stagedId c)
  rw [filter_pendingItem store entries hid, filter_readDir hentries h.entry, List.filterMap_cons,
    hitem, List.filterMap_nil] at hperm
  rw [List.perm_singleton.mp hperm]
  rfl

/-- The file of an approved rule is read as the one rule it holds. -/
theorem rules_approved {body : String} (hround : fromStr (ruleHeader ++ body) = some ⟨[c.2]⟩) :
    DirEntry.rules fromStr ⟨bytes ("ai-approved-" ++ stagedId c ++ ".toml"),
      some (ruleHeader ++ body)⟩ = [c.2] := by
  have hne : "ai-approved-" ++ stagedId c ≠ "" := by
    intro hempty
    exact stagedId_ne_empty c (String.append_eq_empty_iff.mp hempty).2
  unfold DirEntry.rules
  simp only
  rw [if_pos (extension_toml hne), hround]

/-- A proposal whose file is in the approved directory is read from there once. -/
theorem HoldsRule.heldOnce {store : ApprovalStore} (hne : store.approvedDir ≠ "")
    (hround : ∀ rule text, toText ⟨[rule]⟩ = some text → fromStr (ruleHeader ++ text) = some ⟨[rule]⟩)
    (h : HoldsRule toText fs store.approvedDir ("ai-approved-" ++ stagedId c ++ ".toml") c path
      inode body) :
    ∃ entries, rulesListing fs store.approvedDir = some entries ∧
      (entries.reduceOption.filter
        (fun e => e.fileName = bytes ("ai-approved-" ++ stagedId c ++ ".toml"))).map
          (fun e => e.rules fromStr) = [[c.2]] := by
  rcases readDir_isSome h.isDir with ⟨entries, hentries⟩
  have hlisting : rulesListing fs store.approvedDir =
      some (entries.map (fun e => some (readEntry fs e))) := by
    unfold rulesListing
    rw [← fs.place_of_ne_empty hne, h.place, Option.bind_some, hentries, Option.map_some]
  refine ⟨_, hlisting, ?_⟩
  have hreduce : (entries.map (fun e => some (readEntry fs e))).reduceOption =
      entries.map (readEntry fs) := by
    unfold List.reduceOption
    rw [List.filterMap_map]
    exact congrFun (@List.filterMap_eq_map _ _ (readEntry fs)) entries
  -- Names that agree in their bytes agree.
  have hsame : ∀ e : String × Entry,
      (readEntry fs e).fileName = bytes ("ai-approved-" ++ stagedId c ++ ".toml") ↔
        e.1 = "ai-approved-" ++ stagedId c ++ ".toml" :=
    fun e => ⟨fun heq => bytes_inj heq, fun heq => congrArg bytes heq⟩
  rw [hreduce, List.filter_map]
  simp only [Function.comp_def, hsame]
  rw [filter_readDir hentries h.entry, List.map_cons, List.map_nil, List.map_cons, List.map_nil]
  have hread : readEntry fs ("ai-approved-" ++ stagedId c ++ ".toml", .file inode) =
      ⟨bytes ("ai-approved-" ++ stagedId c ++ ".toml"), some (ruleHeader ++ body)⟩ := by
    unfold readEntry
    simp only [h.content]
  rw [hread, rules_approved (hround c.2 body h.text)]

end Found

/-- Staging loses nothing, in either directory, exactly when the ids are new, no two of
    them agree and the directory has a name. -/
theorem keepsEvery_iff (store : ApprovalStore) (fs : FileTree)
    (hround : ∀ rule text, toText ⟨[rule]⟩ = some text → fromStr (ruleHeader ++ text) = some ⟨[rule]⟩)
    (calls : List (Nat × Rule)) :
    (AllStaged (store.stagePending toText) fs calls →
      (EachAddsOne (store.stagePending toText) fs calls ∧
          ListedOnce fromStr store (stageRules (store.stagePending toText) fs calls) calls ↔
        NewIds store.pendingDir store.pendingFile fs calls ∧
          (calls = [] ∨ store.pendingDir ≠ ""))) ∧
    (AllStaged (store.stageAuto toText) fs calls →
      (EachAddsOne (store.stageAuto toText) fs calls ∧
          HeldOnce fromStr store (stageRules (store.stageAuto toText) fs calls) calls ↔
        NewIds store.approvedDir store.approvedFile fs calls ∧
          (calls = [] ∨ store.approvedDir ≠ ""))) := by
  constructor
  · intro hok
    have hname : ∀ c, IsName (stagedId c ++ ".toml") := fun c => isName_pending c.1 c.2.name
    have hinj : (fun id : String => id ++ ".toml").Injective := fun a b h => append_cancel_right h
    refine eachFound_iff hname hinj calls hok
      (fun hne c path inode body h => h.listedOnce hne hround) (fun hempty c hfound => ?_)
    rcases hfound with ⟨items, hitems, hrule⟩
    rw [listPending_of_empty hempty] at hitems
    rw [← Except.ok.inj hitems] at hrule
    exact absurd hrule (by simp)
  · intro hok
    have hname : ∀ c, IsName ("ai-approved-" ++ stagedId c ++ ".toml") :=
      fun c => isName_approved c.1 c.2.name
    have hinj : (fun id : String => "ai-approved-" ++ id ++ ".toml").Injective :=
      fun a b h => append_cancel_left (append_cancel_right h)
    refine eachFound_iff hname hinj calls hok
      (fun hne c path inode body h => h.heldOnce hne hround) (fun hempty c hfound => ?_)
    rcases hfound with ⟨entries, hentries, _⟩
    rw [hempty, rulesListing_empty] at hentries
    exact absurd hentries (by simp)

/-- The text of a rule without conditions. -/
def bareText (name action : String) : String :=
  "[[rules]]\nname = \"" ++ name ++ "\"\naction = \"" ++ action ++ "\"\nmatch_process = []\n" ++
    "match_path_prefix = []\nmatch_exec_path = []\nmatch_port = []\n"

/-- What two rules are written as, whose names differ in one character. -/
def writeTwo (rs : RuleSet) : Option String :=
  if rs = ⟨[Rule.bare "a/b" .alert]⟩ then some (bareText "a/b" "alert")
  else if rs = ⟨[Rule.bare "a-b" .alert]⟩ then some (bareText "a-b" "alert")
  else none

def parseTwo (text : String) : Option RuleSet :=
  if text = ruleHeader ++ bareText "a/b" "alert" then some ⟨[Rule.bare "a/b" .alert]⟩
  else if text = ruleHeader ++ bareText "a-b" "alert" then some ⟨[Rule.bare "a-b" .alert]⟩
  else none

theorem parseTwo_writeTwo (rule : Rule) (text : String) (h : writeTwo ⟨[rule]⟩ = some text) :
    parseTwo (ruleHeader ++ text) = some ⟨[rule]⟩ := by
  unfold writeTwo at h
  split at h
  · next heq =>
      rw [← Option.some.inj h, heq]
      exact if_pos rfl
  · split at h
    · next heq =>
        rw [← Option.some.inj h, heq]
        decide +kernel
    · exact absurd h (by simp)

/-- Two rules staged one after the other get two files. -/
theorem two_readings_keep_both :
    EachAddsOne (exampleStore.stagePending writeTwo) emptyRoot
        [(1, Rule.bare "a/b" .alert), (2, Rule.bare "a-b" .alert)] ∧
      ListedOnce parseTwo exampleStore (stageRules (exampleStore.stagePending writeTwo) emptyRoot
        [(1, Rule.bare "a/b" .alert), (2, Rule.bare "a-b" .alert)])
        [(1, Rule.bare "a/b" .alert), (2, Rule.bare "a-b" .alert)] := by
  have h := (keepsEvery_iff writeTwo parseTwo exampleStore emptyRoot parseTwo_writeTwo
    [(1, Rule.bare "a/b" .alert), (2, Rule.bare "a-b" .alert)]).1
      ⟨⟨"1-a-b", by decide +kernel⟩, ⟨"2-a-b", by decide +kernel⟩, trivial⟩
  exact h.mpr ⟨⟨by decide, by decide +kernel⟩, .inr (by decide)⟩

/-- At one reading they get one, and the first rule is lost. -/
theorem one_reading_loses_first :
    (∀ rule text, writeTwo ⟨[rule]⟩ = some text → parseTwo (ruleHeader ++ text) = some ⟨[rule]⟩) ∧
      AllStaged (exampleStore.stagePending writeTwo) emptyRoot
        [(1, Rule.bare "a/b" .alert), (1, Rule.bare "a-b" .alert)] ∧
      ¬ EachAddsOne (exampleStore.stagePending writeTwo) emptyRoot
        [(1, Rule.bare "a/b" .alert), (1, Rule.bare "a-b" .alert)] ∧
      ¬ ListedOnce parseTwo exampleStore (stageRules (exampleStore.stagePending writeTwo) emptyRoot
        [(1, Rule.bare "a/b" .alert), (1, Rule.bare "a-b" .alert)])
        [(1, Rule.bare "a/b" .alert), (1, Rule.bare "a-b" .alert)] := by
  have hok : AllStaged (exampleStore.stagePending writeTwo) emptyRoot
      [(1, Rule.bare "a/b" .alert), (1, Rule.bare "a-b" .alert)] :=
    ⟨⟨"1-a-b", by decide +kernel⟩, ⟨"1-a-b", by decide +kernel⟩, trivial⟩
  refine ⟨parseTwo_writeTwo, hok, fun hadds => ?_, fun hlisted => ?_⟩
  · have hnew := (eachAddsOne_iff (fun c => isName_pending c.1 c.2.name)
      (fun a b h => append_cancel_right h) _ hok).mp hadds
    exact absurd hnew.1 (by decide)
  · -- The one item with the id has the second rule.
    rcases hlisted (1, Rule.bare "a/b" .alert) List.mem_cons_self with ⟨items, hitems, hfirst⟩
    rcases hlisted (1, Rule.bare "a-b" .alert) (by simp) with ⟨items', hitems', hsecond⟩
    have hsame : items = items' := Except.ok.inj (hitems.symm.trans hitems')
    have hid : stagedId (1, Rule.bare "a/b" .alert) = stagedId (1, Rule.bare "a-b" .alert) := by
      decide
    rw [hsame, hid, hsecond] at hfirst
    exact absurd hfirst (by decide)

end VectorGuard
