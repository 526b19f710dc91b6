import Mathlib.Data.List.Induction
import VectorGuard.Lib.FileTree

/-!
# Paths in File Trees

Where the path of a name in a directory leads, and what creating directories does.

A walk depends on directories only. Creating directories adds directories and
nothing else, so a path that leads somewhere leads there afterwards.

A tree is well formed when every name is in a directory and every inode has one
name, as in a file system without links.

## Main definitions

* `WellFormed`: Names are in directories, and inodes have one name.
* `IsName`: A string that is one component of a path and no dot.
* `MoreDirs`: What a tree has over another when directories were added.

## Theorems

* `resolve_child`, `resolve_slash_child`, `resolve_name`: The path of a name in a
  directory.
* `makeDirs_spec`: What creating directories does.
* `createDirAll_of_resolve`, `resolve_createDirAll`: Creating a directory that is
  there, and one that is not.
* `resolve_congr`: Paths depend on directories only.
-/

namespace FileTree

/-- Every name is in a directory, and no two names share an inode. -/
structure WellFormed (fs : FileTree) : Prop where
  parent : ∀ path name, fs.entry (path ++ [name]) ≠ none → fs.entry path = some .dir
  unique : ∀ path path' inode, fs.entry path = some (.file inode) →
    fs.entry path' = some (.file inode) → path = path'

/-- A string that is one component of a path and leads to a child. -/
structure IsName (name : String) : Prop where
  slash : '/' ∉ name.toList
  nonempty : name ≠ ""
  dot : name ≠ "."
  dotdot : name ≠ ".."

/-! ## Paths -/

theorem components_append_slash (s t : String) :
    components (s ++ "/" ++ t) = components s ++ components t := by
  unfold components
  rw [String.toList_append, String.toList_append, List.append_assoc]
  have hslash : "/".toList ++ t.toList = '/' :: t.toList := rfl
  rw [hslash, List.splitOn_append_cons_self, List.map_append]

theorem components_of_notMem {name : String} (h : '/' ∉ name.toList) :
    components name = [name] := by
  unfold components
  rw [List.splitOn_eq_singleton h, List.map_singleton, String.ofList_toList]

section Walks

variable (fs : FileTree)

theorem walk_cons (cur : Path) (c : String) (rest : List String) :
    fs.walk cur (c :: rest) =
      if fs.entry cur = some .dir then
        if c = "" ∨ c = "." then fs.walk cur rest
        else if c = ".." then fs.walk cur.dropLast rest
        else fs.walk (cur ++ [c]) rest
      else none :=
  rfl

theorem walk_append (cur : Path) (cs cs' : List String) :
    fs.walk cur (cs ++ cs') = (fs.walk cur cs).bind (fun q => fs.walk q cs') := by
  induction cs generalizing cur with
  | nil => rfl
  | cons c rest ih =>
      rw [List.cons_append, walk_cons, walk_cons]
      by_cases hdir : fs.entry cur = some .dir
      · rw [if_pos hdir, if_pos hdir]
        by_cases hdot : c = "" ∨ c = "."
        · rw [if_pos hdot, if_pos hdot]
          exact ih cur
        · rw [if_neg hdot, if_neg hdot]
          by_cases hup : c = ".."
          · rw [if_pos hup, if_pos hup]
            exact ih _
          · rw [if_neg hup, if_neg hup]
            exact ih _
      · rw [if_neg hdir, if_neg hdir]
        rfl

theorem walk_isName (cur : Path) {name : String} (h : IsName name) :
    fs.walk cur [name] = if fs.entry cur = some .dir then some (cur ++ [name]) else none := by
  have hdot : ¬ (name = "" ∨ name = ".") := fun heq => heq.elim h.nonempty h.dot
  rw [walk_cons, if_neg hdot, if_neg h.dotdot]
  rfl

/-- A walk that arrives has started at a directory, or not moved. -/
theorem walk_cons_dir {cur : Path} {c : String} {rest : List String} {path : Path}
    (h : fs.walk cur (c :: rest) = some path) : fs.entry cur = some .dir := by
  unfold walk at h
  by_cases hdir : fs.entry cur = some .dir
  · exact hdir
  · rw [if_neg hdir] at h
    exact absurd h (by simp)

theorem resolve_of_ne_empty {p : String} (h : p ≠ "") :
    fs.resolve p = fs.walk (fs.base p) (components p) :=
  if_neg h

theorem append_slash_ne_empty (dir name : String) : dir ++ "/" ++ name ≠ "" := by
  intro hempty
  have hchars := congrArg String.toList hempty
  rw [String.toList_append, String.toList_append] at hchars
  simp at hchars

/-- The path of a name below a directory that is not written with a slash. -/
theorem resolve_child {dir name : String} (hne : dir ≠ "") (hname : IsName name) :
    fs.resolve (dir ++ "/" ++ name) = (fs.resolve dir).bind (fun q => fs.walk q [name]) := by
  have hbase : fs.base (dir ++ "/" ++ name) = fs.base dir := by
    unfold base
    rw [String.toList_append, String.toList_append, List.append_assoc]
    cases hchars : dir.toList with
    | nil => exact absurd (String.toList_inj.mp hchars) hne
    | cons c rest => rfl
  rw [fs.resolve_of_ne_empty (append_slash_ne_empty dir name), fs.resolve_of_ne_empty hne, hbase,
    components_append_slash, components_of_notMem hname.slash, walk_append]

/-- The path of a name below a directory that is written with a slash. -/
theorem resolve_slash_child {dir name : String} (hname : IsName name) :
    fs.resolve (dir ++ "/" ++ name) =
      (fs.resolve (dir ++ "/")).bind (fun q => fs.walk q [name]) := by
  have hbase : fs.base (dir ++ "/" ++ name) = fs.base (dir ++ "/") := by
    unfold base
    rw [String.toList_append, String.toList_append]
    cases dir.toList <;> rfl
  have hempty : components "" = [""] := by decide
  have hslash : components (dir ++ "/") = components dir ++ [""] := by
    have happend := components_append_slash dir ""
    rw [String.append_empty, hempty] at happend
    exact happend
  have hne : dir ++ "/" ≠ "" := by
    have happend := append_slash_ne_empty dir ""
    rw [String.append_empty] at happend
    exact happend
  rw [fs.resolve_of_ne_empty (append_slash_ne_empty dir name), fs.resolve_of_ne_empty hne, hbase,
    components_append_slash, components_of_notMem hname.slash, hslash, walk_append, walk_append,
    Option.bind_assoc]
  congr 1
  funext q
  -- The empty component behind the slash stays where it is, if that is a directory.
  have hstay : fs.walk q [""] = if fs.entry q = some .dir then some q else none := rfl
  rw [hstay]
  split
  · rw [Option.bind_some]
  · next hdir =>
      rw [fs.walk_isName q hname, if_neg hdir]
      rfl

/-- The path of a name in the working directory. -/
theorem resolve_name {name : String} (hname : IsName name) :
    fs.resolve name = (fs.resolve ".").bind (fun q => fs.walk q [name]) := by
  have hbase : fs.base name = fs.sys.cwd := by
    unfold base
    rw [if_neg]
    intro hhead
    exact hname.slash (List.mem_of_mem_head? hhead)
  have hcwd : fs.resolve "." =
      if fs.entry fs.sys.cwd = some .dir then some fs.sys.cwd else none := by
    rw [fs.resolve_of_ne_empty (by decide)]
    rfl
  rw [hcwd, fs.resolve_of_ne_empty hname.nonempty, hbase, components_of_notMem hname.slash,
    fs.walk_isName fs.sys.cwd hname]
  split
  · next hdir => rw [Option.bind_some, fs.walk_isName fs.sys.cwd hname, if_pos hdir]
  · rfl

theorem place_of_ne_empty {p : String} (h : p ≠ "") : fs.place p = fs.resolve p := by
  unfold place
  rw [if_neg h]

/-- A path string that leads somewhere is not empty, and names joined to it are there. -/
theorem place_of_resolve {p : String} {path : Path} (h : fs.resolve p = some path) :
    fs.place p = some path := by
  rw [fs.place_of_ne_empty, h]
  intro hempty
  rw [hempty] at h
  exact absurd h (by simp [resolve])

end Walks

/-! ## Creating directories -/

section Directories

variable {fs : FileTree}

theorem entry_link_of_ne {path q : Path} {e : Entry} (he : ∀ inode, e = .file inode → inode < fs.next)
    (hne : q ≠ path) : (fs.link path e he).entry q = fs.entry q := by
  cases q with
  | nil => rfl
  | cons c rest => exact AList.lookup_insert_ne hne

theorem entry_ne_nil {path : Path} (h : fs.entry path ≠ some .dir) : path ≠ [] := by
  intro hnil
  rw [hnil] at h
  exact h rfl

/-- What one tree has over another when directories were added to it. -/
structure MoreDirs (fs fs' : FileTree) : Prop where
  kept : ∀ q e, fs.entry q = some e → fs'.entry q = some e
  file : ∀ q inode, fs'.entry q = some (.file inode) → fs.entry q = some (.file inode)
  data : fs'.data = fs.data
  next : fs'.next = fs.next
  sys : fs'.sys = fs.sys

theorem MoreDirs.refl (fs : FileTree) : MoreDirs fs fs :=
  ⟨fun _ _ h => h, fun _ _ h => h, rfl, rfl, rfl⟩

theorem MoreDirs.trans {fs₁ fs₂ fs₃ : FileTree} (h : MoreDirs fs₁ fs₂) (h' : MoreDirs fs₂ fs₃) :
    MoreDirs fs₁ fs₃ where
  kept := fun q e hq => h'.kept q e (h.kept q e hq)
  file := fun q inode hq => h.file q inode (h'.file q inode hq)
  data := h'.data.trans h.data
  next := h'.next.trans h.next
  sys := h'.sys.trans h.sys

theorem moreDirs_link {path : Path} (hnone : fs.entry path = none) :
    MoreDirs fs (fs.link path .dir (by simp)) := by
  have hself : (fs.link path .dir (by simp)).entry path = some .dir :=
    fs.entry_link_self path .dir (by simp) (entry_ne_nil (by rw [hnone]; simp))
  refine ⟨fun q e hq => ?_, fun q inode hq => ?_, rfl, rfl, rfl⟩
  · have hne : q ≠ path := by
      intro heq
      rw [heq, hnone] at hq
      exact absurd hq (by simp)
    rw [entry_link_of_ne _ hne]
    exact hq
  · have hne : q ≠ path := by
      intro heq
      rw [heq, hself] at hq
      exact absurd hq (by simp)
    rw [entry_link_of_ne _ hne] at hq
    exact hq

theorem WellFormed.link {path : Path} {name : String} (h : WellFormed fs)
    (hdir : fs.entry path = some .dir) (hnone : fs.entry (path ++ [name]) = none) :
    WellFormed (fs.link (path ++ [name]) .dir (by simp)) := by
  have hmore := moreDirs_link hnone
  refine ⟨fun q c hq => ?_, fun q q' inode hq hq' => ?_⟩
  · by_cases heq : q ++ [c] = path ++ [name]
    · rw [(List.append_inj' heq rfl).1]
      exact hmore.kept path .dir hdir
    · rw [entry_link_of_ne _ heq] at hq
      exact hmore.kept q .dir (h.parent q c hq)
  · exact h.unique q q' inode (hmore.file q inode hq) (hmore.file q' inode hq')

theorem makeDirs_cons (fs : FileTree) (cur : Path) (c : String) (rest : List String) :
    fs.makeDirs cur (c :: rest) =
      if fs.entry cur = some .dir then
        if c = "" ∨ c = "." then fs.makeDirs cur rest
        else if c = ".." then fs.makeDirs cur.dropLast rest
        else match fs.entry (cur ++ [c]) with
          | some .dir => fs.makeDirs (cur ++ [c]) rest
          | some (.file _) => (fs, false)
          | none =>
            if fs.sys.accepts (cur ++ [c]) then
              (fs.link (cur ++ [c]) .dir (by simp)).makeDirs (cur ++ [c]) rest
            else (fs, false)
      else (fs, false) :=
  rfl

/-- Creating directories adds directories, keeps a tree well formed, and if it
    works the path leads to a directory. -/
theorem makeDirs_spec (fs : FileTree) (cur : Path) (cs : List String) :
    MoreDirs fs (fs.makeDirs cur cs).1 ∧
      (WellFormed fs → WellFormed (fs.makeDirs cur cs).1) ∧
      ((fs.makeDirs cur cs).2 = true → ∃ path, (fs.makeDirs cur cs).1.walk cur cs = some path ∧
        (fs.makeDirs cur cs).1.entry path = some .dir) := by
  -- By induction on the components, along the walk that creates what is missing.
  induction cs generalizing fs cur with
  | nil =>
      refine ⟨MoreDirs.refl fs, id, fun h => ⟨cur, rfl, ?_⟩⟩
      exact of_decide_eq_true h
  | cons c rest ih =>
      rw [makeDirs_cons]
      simp only [walk_cons]
      by_cases hdir : fs.entry cur = some .dir
      · rw [if_pos hdir]
        by_cases hdot : c = "" ∨ c = "."
        · simp only [if_pos hdot]
          rcases ih fs cur with ⟨hmore, hwell, hok⟩
          rw [if_pos (hmore.kept cur .dir hdir)]
          exact ⟨hmore, hwell, hok⟩
        · simp only [if_neg hdot]
          by_cases hup : c = ".."
          · simp only [if_pos hup]
            rcases ih fs cur.dropLast with ⟨hmore, hwell, hok⟩
            rw [if_pos (hmore.kept cur .dir hdir)]
            exact ⟨hmore, hwell, hok⟩
          · simp only [if_neg hup]
            cases hentry : fs.entry (cur ++ [c]) with
            | none =>
                by_cases haccepts : fs.sys.accepts (cur ++ [c]) = true
                · simp only [if_pos haccepts]
                  rcases ih (fs.link (cur ++ [c]) .dir (by simp)) (cur ++ [c]) with
                    ⟨hmore, hwell, hok⟩
                  have hmore' := (moreDirs_link hentry).trans hmore
                  rw [if_pos (hmore'.kept cur .dir hdir)]
                  exact ⟨hmore', fun h => hwell (h.link hdir hentry), hok⟩
                · simp only [if_neg haccepts]
                  exact ⟨MoreDirs.refl fs, id, fun h => absurd h (by simp)⟩
            | some e =>
                cases e with
                | dir =>
                    rcases ih fs (cur ++ [c]) with ⟨hmore, hwell, hok⟩
                    simp only
                    rw [if_pos (hmore.kept cur .dir hdir)]
                    exact ⟨hmore, hwell, hok⟩
                | file inode => exact ⟨MoreDirs.refl fs, id, fun h => absurd h (by simp)⟩
      · rw [if_neg hdir]
        exact ⟨MoreDirs.refl fs, id, fun h => absurd h (by simp)⟩

/-- Creating directories that are there does nothing. -/
theorem makeDirs_of_walk (cur : Path) (cs : List String) (path : Path)
    (hwalk : fs.walk cur cs = some path) (hdir : fs.entry path = some .dir) :
    fs.makeDirs cur cs = (fs, true) := by
  induction cs generalizing cur with
  | nil =>
      rw [← Option.some.inj hwalk] at hdir
      unfold makeDirs
      rw [hdir]
      rfl
  | cons c rest ih =>
      have hcur := fs.walk_cons_dir hwalk
      rw [walk_cons, if_pos hcur] at hwalk
      rw [makeDirs_cons, if_pos hcur]
      by_cases hdot : c = "" ∨ c = "."
      · rw [if_pos hdot] at hwalk ⊢
        exact ih cur hwalk
      · rw [if_neg hdot] at hwalk ⊢
        by_cases hup : c = ".."
        · rw [if_pos hup] at hwalk ⊢
          exact ih _ hwalk
        · rw [if_neg hup] at hwalk ⊢
          -- The next step is to a directory, for the walk goes on from it or ends there.
          have hnext : fs.entry (cur ++ [c]) = some .dir := by
            cases rest with
            | nil =>
                rw [Option.some.inj hwalk]
                exact hdir
            | cons c' rest' => exact fs.walk_cons_dir hwalk
          rw [hnext]
          exact ih _ hwalk

/-- Creating directories where that has failed fails again, and creates no more. -/
theorem makeDirs_of_failed {fs fs' : FileTree} {cur : Path} {cs : List String}
    (h : fs.makeDirs cur cs = (fs', false)) : fs'.makeDirs cur cs = (fs', false) := by
  -- Along the same walk, now through the directories that were created on it.
  induction cs generalizing fs cur with
  | nil =>
      have hsame : fs = fs' := congrArg Prod.fst h
      exact hsame ▸ h
  | cons c rest ih =>
      have hmore := (makeDirs_spec fs cur (c :: rest)).1
      rw [h] at hmore
      rw [makeDirs_cons] at h ⊢
      by_cases hdir : fs.entry cur = some .dir
      · rw [if_pos hdir] at h
        rw [if_pos (hmore.kept cur .dir hdir)]
        by_cases hdot : c = "" ∨ c = "."
        · rw [if_pos hdot] at h ⊢
          exact ih h
        · rw [if_neg hdot] at h ⊢
          by_cases hup : c = ".."
          · rw [if_pos hup] at h ⊢
            exact ih h
          · rw [if_neg hup] at h ⊢
            cases hentry : fs.entry (cur ++ [c]) with
            | none =>
                rw [hentry] at h
                simp only at h
                by_cases haccepts : fs.sys.accepts (cur ++ [c]) = true
                · rw [if_pos haccepts] at h
                  have hlinked :
                      (fs.link (cur ++ [c]) .dir (by simp)).entry (cur ++ [c]) = some .dir :=
                    fs.entry_link_self _ .dir (by simp) (entry_ne_nil (by rw [hentry]; simp))
                  have hkept := (makeDirs_spec _ (cur ++ [c]) rest).1.kept _ _ hlinked
                  rw [h] at hkept
                  rw [hkept]
                  exact ih h
                · -- The name is refused again.
                  rw [if_neg haccepts] at h
                  have hsame : fs = fs' := congrArg Prod.fst h
                  rw [← hsame, hentry]
                  simp only
                  rw [if_neg haccepts]
            | some e =>
                rw [hentry] at h
                rw [hmore.kept _ _ hentry]
                cases e with
                | dir => exact ih h
                | file inode => rfl
      · rw [if_neg hdir] at h
        have hsame : fs = fs' := congrArg Prod.fst h
        rw [if_neg (hsame ▸ hdir)]

theorem moreDirs_createDirAll (fs : FileTree) (p : String) : MoreDirs fs (fs.createDirAll p).1 := by
  unfold createDirAll
  split
  · exact MoreDirs.refl fs
  · exact (makeDirs_spec fs _ _).1

theorem WellFormed.createDirAll (h : WellFormed fs) (p : String) :
    WellFormed (fs.createDirAll p).1 := by
  unfold FileTree.createDirAll
  split
  · exact h
  · exact (makeDirs_spec fs _ _).2.1 h

theorem base_of_sys {fs' : FileTree} (h : fs'.sys = fs.sys) (p : String) :
    fs'.base p = fs.base p := by
  unfold base
  rw [h]

theorem createDirAll_of_ne_empty {p : String} (h : p ≠ "") :
    fs.createDirAll p = fs.makeDirs (fs.base p) (components p) :=
  if_neg h

theorem resolve_createDirAll {p : String} (hne : p ≠ "") (h : (fs.createDirAll p).2 = true) :
    ∃ path, (fs.createDirAll p).1.resolve p = some path ∧
      (fs.createDirAll p).1.entry path = some .dir := by
  rw [resolve_of_ne_empty _ hne, base_of_sys (moreDirs_createDirAll fs p).sys]
  rw [createDirAll_of_ne_empty hne] at h ⊢
  exact (makeDirs_spec fs _ _).2.2 h

/-- Creating a directory that is there does nothing. -/
theorem createDirAll_of_place {p : String} {path : Path} (hpath : fs.place p = some path)
    (hdir : fs.entry path = some .dir) : fs.createDirAll p = (fs, true) := by
  by_cases hempty : p = ""
  · exact if_pos hempty
  · rw [fs.place_of_ne_empty hempty, fs.resolve_of_ne_empty hempty] at hpath
    rw [createDirAll_of_ne_empty hempty]
    exact makeDirs_of_walk _ _ path hpath hdir

theorem createDirAll_of_resolve {p : String} {path : Path} (hpath : fs.resolve p = some path)
    (hdir : fs.entry path = some .dir) : fs.createDirAll p = (fs, true) :=
  createDirAll_of_place (fs.place_of_resolve hpath) hdir

theorem createDirAll_of_failed {fs' : FileTree} {p : String} (h : fs.createDirAll p = (fs', false)) :
    fs'.createDirAll p = (fs', false) := by
  have hsys := (moreDirs_createDirAll fs p).sys
  rw [h] at hsys
  by_cases hempty : p = ""
  · unfold createDirAll at h
    rw [if_pos hempty] at h
    exact absurd (congrArg Prod.snd h) (by simp)
  · rw [createDirAll_of_ne_empty hempty] at h ⊢
    rw [base_of_sys hsys]
    exact makeDirs_of_failed h

/-- Where a path leads it still leads after directories were added. -/
theorem MoreDirs.resolve {fs' : FileTree} (h : MoreDirs fs fs') {p : String} {path : Path}
    (hpath : fs.resolve p = some path) : fs'.resolve p = some path := by
  unfold FileTree.resolve at hpath ⊢
  rw [base_of_sys h.sys]
  split at hpath
  · exact absurd hpath (by simp)
  · next hne =>
      rw [if_neg hne]
      exact walk_of_entry (fun q hq => h.kept q .dir hq) _ _ path hpath

theorem MoreDirs.place {fs' : FileTree} (h : MoreDirs fs fs') {p : String} {path : Path}
    (hpath : fs.place p = some path) : fs'.place p = some path :=
  h.resolve hpath

/-- Paths lead to the same places when the directories are the same. -/
theorem resolve_congr {fs' : FileTree} (hdir : ∀ q, fs'.entry q = some .dir ↔ fs.entry q = some .dir)
    (hsys : fs'.sys = fs.sys) (p : String) : fs'.resolve p = fs.resolve p := by
  unfold resolve
  rw [base_of_sys hsys]
  split
  · rfl
  · exact Option.ext (fun q =>
      ⟨walk_of_entry (fun r => (hdir r).mp) _ _ q, walk_of_entry (fun r => (hdir r).mpr) _ _ q⟩)

theorem place_congr {fs' : FileTree} (hdir : ∀ q, fs'.entry q = some .dir ↔ fs.entry q = some .dir)
    (hsys : fs'.sys = fs.sys) (p : String) : fs'.place p = fs.place p :=
  resolve_congr hdir hsys _

end Directories

end FileTree
