import VectorGuard.Lib.FileNames

/-!
# Contents of File Trees

A file tree as a function from paths to what the files there hold.

Inodes are forgotten, so two trees with the same contents are the same to a program
that goes by paths. In a tree without links each operation on a file updates the
function at the paths it names and nowhere else, and keeps every directory. So a
program whose files lie in directories that stay is described by updates alone.

## Main definitions

* `contents`: What the file at a path holds.
* `Refilled`: A change that keeps the directories and has the given contents.
* `OpenDir`: A directory in which nothing is refused but names that are too long.

## Theorems

* `refilled_of_written`, `refilled_remove`, `refilled_of_moved`: What the operations
  do.
-/

namespace FileTree

variable {fs fs' fs'' : FileTree}

/-- What the file at a path holds. -/
def contents (fs : FileTree) (path : Path) : Option FileData := (fs.fileAt path).map Prod.snd

theorem contents_of_entry {path : Path} {inode : Nat} (h : fs.entry path = some (.file inode)) :
    fs.contents path = some (fs.data inode) := by
  unfold contents
  rw [fileAt_of_entry h, Option.map_some]

theorem contents_eq_none {path : Path} (h : ∀ inode, fs.entry path ≠ some (.file inode)) :
    fs.contents path = none := by
  unfold contents
  rw [Option.map_eq_none_iff, Option.eq_none_iff_forall_ne_some]
  exact fun file hfile => h file.1 (entry_of_fileAt hfile).1

/-- There is a file where something is held. -/
theorem exists_entry_of_contents {path : Path} {file : FileData}
    (h : fs.contents path = some file) :
    ∃ inode, fs.entry path = some (.file inode) ∧ fs.data inode = file := by
  rcases Option.map_eq_some_iff.mp h with ⟨⟨inode, data⟩, hfile, rfl⟩
  exact ⟨inode, entry_of_fileAt hfile⟩

/-- A change that keeps the directories, after which the files hold something. Only a name
    that the system takes comes to hold a file. -/
structure Refilled (fs fs' : FileTree) (held : Path → Option FileData) : Prop where
  dirs : ∀ q, fs'.entry q = some .dir ↔ fs.entry q = some .dir
  sys : fs'.sys = fs.sys
  wellFormed : WellFormed fs'
  contents : fs'.contents = held
  taken : ∀ q, held q ≠ none → fs.contents q ≠ none ∨ fs.sys.accepts q = true

theorem Refilled.refl (hwell : WellFormed fs) : Refilled fs fs fs.contents :=
  ⟨fun _ => Iff.rfl, rfl, hwell, rfl, fun _ => .inl⟩

theorem Refilled.trans {held held' : Path → Option FileData} (h : Refilled fs fs' held)
    (h' : Refilled fs' fs'' held') : Refilled fs fs'' held' := by
  refine ⟨fun q => (h'.dirs q).trans (h.dirs q), h'.sys.trans h.sys, h'.wellFormed, h'.contents,
    fun q hq => ?_⟩
  rcases h'.taken q hq with hheld | htaken
  · rw [h.contents] at hheld
    exact h.taken q hheld
  · exact .inr (h.sys ▸ htaken)

theorem Refilled.resolve {held : Path → Option FileData} (h : Refilled fs fs' held) (p : String) :
    fs'.resolve p = fs.resolve p :=
  resolve_congr h.dirs h.sys p

/-- A directory whose files can be changed: the system takes every name there that is not
    too long, and no file has one that is. -/
structure OpenDir (fs : FileTree) (dir : Path) : Prop where
  isDir : fs.entry dir = some .dir
  takes : ∀ name, fs.sys.accepts (dir ++ [name]) = fits name
  fits : ∀ name, fs.contents (dir ++ [name]) ≠ none → fits name = true

theorem OpenDir.accepts_of_contents {dir : Path} (h : OpenDir fs dir) {name : String}
    (hheld : fs.contents (dir ++ [name]) ≠ none) : fs.sys.accepts (dir ++ [name]) = true := by
  rw [h.takes]
  exact h.fits name hheld

theorem OpenDir.accepts_of_entry {dir : Path} (h : OpenDir fs dir) {name : String} {inode : Nat}
    (hentry : fs.entry (dir ++ [name]) = some (.file inode)) :
    fs.sys.accepts (dir ++ [name]) = true := by
  refine h.accepts_of_contents ?_
  rw [contents_of_entry hentry]
  exact Option.some_ne_none _

/-- Such a directory stays one. -/
theorem OpenDir.refilled {held : Path → Option FileData} {dir : Path} (h : OpenDir fs dir)
    (hfill : Refilled fs fs' held) : OpenDir fs' dir where
  isDir := (hfill.dirs dir).mpr h.isDir
  takes name := by rw [hfill.sys, h.takes]
  fits name hheld := by
    rw [hfill.contents] at hheld
    rcases hfill.taken _ hheld with hold | htaken
    · exact h.fits name hold
    · rw [← h.takes]
      exact htaken

/-- A write changes what one file holds. -/
theorem refilled_of_written (hwell : WellFormed fs) {now : Nat} {content : String} {path : Path}
    {name : String} {inode : Nat} (h : Written fs fs' now content (path ++ [name]) inode)
    (hdir : fs.entry path = some .dir) :
    Refilled fs fs' (Function.update fs.contents (path ++ [name]) (some ⟨content, now⟩)) := by
  refine ⟨h.kept_dir, h.sys, hwell.written h hdir, funext (fun q => ?_), fun q hheld => ?_⟩
  · by_cases hq : q = path ++ [name]
    · rw [hq, Function.update_self, contents_of_entry h.entry_self, h.data, Function.update_self]
    · rw [Function.update_of_ne hq]
      unfold contents
      rw [h.fileAt_of_ne hwell hq]
  · by_cases hq : q = path ++ [name]
    · rw [hq]
      exact .inr h.accepted
    · rw [Function.update_of_ne hq] at hheld
      exact .inl hheld

/-- Removing a file empties its name, if it can be taken away. -/
theorem refilled_remove (hwell : WellFormed fs) {path : Path} {inode : Nat}
    (hfile : fs.entry path = some (.file inode)) (haccepts : fs.sys.accepts path = true) :
    Refilled fs (fs.remove path).1 (Function.update fs.contents path none) := by
  rcases entry_remove hfile haccepts with ⟨hgone, hothers⟩
  -- What has an entry afterwards has had it before.
  have hbefore : ∀ q e, (fs.remove path).1.entry q = some e → fs.entry q = some e := by
    intro q e he
    by_cases hq : q = path
    · rw [hq, hgone] at he
      exact absurd he (by simp)
    · rw [← hothers q hq]
      exact he
  have hdirs : ∀ q, (fs.remove path).1.entry q = some .dir ↔ fs.entry q = some .dir := by
    refine fun q => ⟨hbefore q .dir, fun hq => ?_⟩
    have hne : q ≠ path := by
      intro heq
      rw [heq, hfile] at hq
      exact absurd hq (by simp)
    rw [hothers q hne]
    exact hq
  refine ⟨hdirs, ?_, ⟨fun q name hq => ?_, fun q q' i hq hq' => ?_⟩, funext (fun q => ?_),
    fun q hheld => ?_⟩
  · rw [remove_eq hfile haccepts]
    rfl
  · rcases Option.ne_none_iff_exists'.mp hq with ⟨e, he⟩
    have hparent := hwell.parent q name (by rw [hbefore _ e he]; exact Option.some_ne_none e)
    exact (hdirs q).mpr hparent
  · exact hwell.unique q q' i (hbefore q _ hq) (hbefore q' _ hq')
  · by_cases hq : q = path
    · rw [hq, Function.update_self]
      exact contents_eq_none (fun i => by rw [hgone]; simp)
    · have hsame : (fs.remove path).1.fileAt q = fs.fileAt q :=
        fileAt_congr (fun i => by rw [hothers q hq]) (fun i _ => by rw [fs.data_remove])
      rw [Function.update_of_ne hq]
      unfold contents
      rw [hsame]
  · by_cases hq : q = path
    · rw [hq, Function.update_self] at hheld
      exact absurd rfl hheld
    · rw [Function.update_of_ne hq] at hheld
      exact .inl hheld

/-- Moving a file empties the name it had, and the name it gets holds what it held. -/
theorem refilled_of_moved (hwell : WellFormed fs) {path dir : Path} {name : String} {inode : Nat}
    (h : Moved fs fs' path (dir ++ [name]) inode) (hdata : fs'.data = fs.data)
    (hfile : fs.entry path = some (.file inode)) (hdir : fs.entry dir = some .dir)
    (hne : path ≠ dir ++ [name]) :
    Refilled fs fs' (Function.update (Function.update fs.contents path none) (dir ++ [name])
      (fs.contents path)) := by
  have hgone := h.entry_src hne
  have hdirs := h.kept_dir hfile
  -- The inode that was moved has the new name only.
  have hinode : ∀ q, fs'.entry q = some (.file inode) → q = dir ++ [name] := by
    intro q hq
    by_contra hother
    by_cases hsrc : q = path
    · rw [hsrc, hgone] at hq
      exact absurd hq (by simp)
    · rw [h.entry_of_ne q hsrc hother] at hq
      exact hsrc (hwell.unique q path inode hq hfile)
  have hbefore : ∀ q i, q ≠ dir ++ [name] → fs'.entry q = some (.file i) →
      fs.entry q = some (.file i) := by
    intro q i hq hi
    by_cases hsrc : q = path
    · rw [hsrc, hgone] at hi
      exact absurd hi (by simp)
    · rw [← h.entry_of_ne q hsrc hq]
      exact hi
  refine ⟨hdirs, h.sys, ⟨fun q c hq => ?_, fun q q' i hq hq' => ?_⟩, funext (fun q => ?_),
    fun q hheld => ?_⟩
  · rw [hdirs]
    by_cases hdst : q ++ [c] = dir ++ [name]
    · rw [(List.append_inj' hdst rfl).1]
      exact hdir
    · by_cases hsrc : q ++ [c] = path
      · rw [hsrc, hgone] at hq
        exact absurd rfl hq
      · rw [h.entry_of_ne _ hsrc hdst] at hq
        exact hwell.parent q c hq
  · by_cases hdst : q = dir ++ [name]
    · rw [hdst, h.entry_dst, Option.some.injEq, Entry.file.injEq] at hq
      rw [← hq] at hq'
      rw [hdst, hinode q' hq']
    · by_cases hdst' : q' = dir ++ [name]
      · rw [hdst', h.entry_dst, Option.some.injEq, Entry.file.injEq] at hq'
        rw [← hq'] at hq
        exact absurd (hinode q hq) hdst
      · exact hwell.unique q q' i (hbefore q i hdst hq) (hbefore q' i hdst' hq')
  · by_cases hdst : q = dir ++ [name]
    · rw [hdst, Function.update_self, contents_of_entry h.entry_dst, hdata,
        contents_of_entry hfile]
    · rw [Function.update_of_ne hdst]
      by_cases hsrc : q = path
      · rw [hsrc, Function.update_self]
        exact contents_eq_none (fun i => by rw [hgone]; simp)
      · rw [Function.update_of_ne hsrc]
        unfold contents
        rw [h.fileAt_of_ne hdata hsrc hdst]
  · by_cases hdst : q = dir ++ [name]
    · have hmoves := h.moves
      unfold System.moves at hmoves
      rw [Bool.and_eq_true, Bool.and_eq_true] at hmoves
      rw [hdst]
      exact .inr hmoves.1.2
    · rw [Function.update_of_ne hdst] at hheld
      by_cases hsrc : q = path
      · rw [hsrc, Function.update_self] at hheld
        exact absurd rfl hheld
      · rw [Function.update_of_ne hsrc] at hheld
        exact .inl hheld

end FileTree
