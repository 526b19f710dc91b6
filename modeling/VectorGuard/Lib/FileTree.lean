import Mathlib.Data.List.AList

/-!
# File Trees

A file system with directories, files and their modification times, as far as
a program that writes, moves, removes and lists files depends on it.

Names lead to entries and a file's entry to its inode, which holds the contents
and the modification time, so a file keeps its identity when it is moved. A path
is walked component by component as POSIX does it: every step but the last
starts at a directory, and dots are resolved on the way. The empty string leads
nowhere, but a name that is joined to it is in the working directory. There are no
links.

A change fails where the system refuses it: a name may be too long, or one of those
that are not to be changed, as on a file system that is mounted read-only, and no name
moves from one file system to another. What is refused is the same all along. Reading
is never refused, a file system is never full, and neither the length of a whole path
nor a zero byte in it is looked at.

## Main definitions

* `System`: What the system refuses.
* `FileTree`: The directory tree and the inodes.
* `resolve`, `place`: Where a path string leads, and where a name joined to it is.
* `createDirAll`, `write`, `rename`, `remove`, `readDir`: The operations.

## Theorems

* `data_createDirAll`, `data_rename`, `data_remove`: These leave every inode as
  it is.
* `mtime_le_write`: Writing at a later time moves no modification time back.
* `entry_remove_of_ne`: Removing one name leaves the others.
-/

namespace FileTree

/-- The components of an absolute path. -/
abbrev Path := List String

inductive Entry
  | dir
  | file (inode : Nat)
  deriving DecidableEq, Repr

structure FileData where
  content : String
  mtime : Nat
  deriving DecidableEq, Repr

/-- What the system holds against changes: the working directory, the file system that
    a directory is on, and the names that are not to be changed. -/
structure System where
  cwd : Path
  mount : Path → Nat
  refused : Path → Bool

/-- `NAME_MAX`. -/
def nameMax : Nat := 255

/-- A name is not too long. -/
def fits (name : String) : Bool := name.utf8ByteSize ≤ nameMax

/-- The name of a path can be given and taken away. -/
def System.accepts (sys : System) (path : Path) : Bool :=
  path.getLast?.all fits && !sys.refused path

/-- One path can be moved to another. -/
def System.moves (sys : System) (path path' : Path) : Bool :=
  sys.accepts path && sys.accepts path' && sys.mount path.dropLast == sys.mount path'.dropLast

end FileTree

open FileTree in
/-- The names below the root, the inodes, the next free inode, and what the system
    refuses. Every inode in use is below the next free one. -/
structure FileTree where
  names : AList (fun _ : Path => Entry)
  data : Nat → FileData
  next : Nat
  sys : System
  inode_lt : ∀ path inode, names.lookup path = some (.file inode) → inode < next

namespace FileTree

/-- What a path leads to. The root is a directory. -/
def entry (fs : FileTree) : Path → Option Entry
  | [] => some .dir
  | path => fs.names.lookup path

/-- Follow components from a directory. -/
def walk (fs : FileTree) : Path → List String → Option Path
  | cur, [] => some cur
  | cur, c :: rest =>
    if fs.entry cur = some .dir then
      if c = "" ∨ c = "." then walk fs cur rest
      else if c = ".." then walk fs cur.dropLast rest
      else walk fs (cur ++ [c]) rest
    else none

/-- The directory a path string starts from. -/
def base (fs : FileTree) (p : String) : Path :=
  if p.toList.head? = some '/' then [] else fs.sys.cwd

/-- The components of a path string. -/
def components (p : String) : List String :=
  (p.toList.splitOn '/').map String.ofList

/-- Where a path string leads, none when it is empty or a component on the way is not
    a directory. -/
def resolve (fs : FileTree) (p : String) : Option Path :=
  if p = "" then none else fs.walk (fs.base p) (components p)

/-- Where a name is that is joined to a path string. -/
def place (fs : FileTree) (p : String) : Option Path :=
  fs.resolve (if p = "" then "." else p)

/-- What a path string leads to. -/
def lookup (fs : FileTree) (p : String) : Option Entry :=
  (fs.resolve p).bind fs.entry

theorem lookup_of_resolve {fs : FileTree} {p : String} {path : Path}
    (h : fs.resolve p = some path) : fs.lookup p = fs.entry path := by
  unfold lookup
  rw [h, Option.bind_some]

theorem lookup_ne_none_of_entry {fs : FileTree} {p : String} {path : Path} {e : Entry}
    (hpath : fs.resolve p = some path) (hentry : fs.entry path = some e) :
    fs.lookup p ≠ none := by
  rw [lookup_of_resolve hpath, hentry]
  exact Option.some_ne_none e

/-- Put a name in the tree, for an inode in use or a directory. -/
def link (fs : FileTree) (path : Path) (e : Entry) (he : ∀ inode, e = .file inode → inode < fs.next) :
    FileTree :=
  { fs with
    names := fs.names.insert path e
    inode_lt := by
      intro path' inode h
      by_cases hpath : path' = path
      · rw [hpath, AList.lookup_insert] at h
        exact he inode (Option.some.inj h)
      · rw [AList.lookup_insert_ne hpath] at h
        exact fs.inode_lt path' inode h }

/-- Take a name out of the tree. -/
def unlink (fs : FileTree) (path : Path) : FileTree :=
  { fs with
    names := fs.names.erase path
    inode_lt := by
      intro path' inode h
      by_cases hpath : path' = path
      · rw [hpath, AList.lookup_erase] at h
        exact absurd h (by simp)
      · rw [AList.lookup_erase_ne hpath] at h
        exact fs.inode_lt path' inode h }

/-- Create the directories that are missing on the way. The flag is whether the
    whole path is a directory in the end. -/
def makeDirs (fs : FileTree) : Path → List String → FileTree × Bool
  | cur, [] => (fs, fs.entry cur = some .dir)
  | cur, c :: rest =>
    if fs.entry cur = some .dir then
      if c = "" ∨ c = "." then makeDirs fs cur rest
      else if c = ".." then makeDirs fs cur.dropLast rest
      else match fs.entry (cur ++ [c]) with
        | some .dir => makeDirs fs (cur ++ [c]) rest
        | some (.file _) => (fs, false)
        | none =>
          if fs.sys.accepts (cur ++ [c]) then
            makeDirs (fs.link (cur ++ [c]) .dir (by simp)) (cur ++ [c]) rest
          else (fs, false)
    else (fs, false)

/-- `create_dir_all`, which has nothing to do for the empty path. -/
def createDirAll (fs : FileTree) (p : String) : FileTree × Bool :=
  if p = "" then (fs, true) else fs.makeDirs (fs.base p) (components p)

/-- Set the contents of an inode at a time. -/
def store (fs : FileTree) (now : Nat) (inode : Nat) (content : String) : FileTree :=
  { fs with data := Function.update fs.data inode { content, mtime := now } }

/-- Create or overwrite a file. The flag is whether that worked. -/
def write (fs : FileTree) (now : Nat) (p content : String) : FileTree × Bool :=
  match fs.resolve p with
  | none => (fs, false)
  | some path =>
    if fs.sys.accepts path then
      match fs.entry path with
      | some .dir => (fs, false)
      | some (.file inode) => (fs.store now inode content, true)
      | none =>
        let fs' := { fs with
          next := fs.next + 1
          inode_lt := fun path inode h => Nat.lt_succ_of_lt (fs.inode_lt path inode h) }
        ((fs'.link path (.file fs.next)
          (fun _ h => Entry.file.inj h ▸ Nat.lt_succ_self fs.next)).store now fs.next content, true)
    else (fs, false)

/-- Delete a file. The flag is whether that worked. -/
def remove (fs : FileTree) (p : Path) : FileTree × Bool :=
  match fs.entry p with
  | some (.file _) => if fs.sys.accepts p then (fs.unlink p, true) else (fs, false)
  | _ => (fs, false)

/-- Move one name. -/
def relink (fs : FileTree) (p p' : Path) : FileTree :=
  match h : fs.names.lookup p with
  | none => fs
  | some e =>
    (fs.unlink p).link p' e (fun inode he => fs.inode_lt p inode (by rw [h, he]))

/-- Move a name and, for a directory, the names below it. -/
def relinkAll (fs : FileTree) (p p' : Path) : FileTree :=
  (fs.names.keys.filter (fun q => p.isPrefixOf q)).foldl
    (fun fs q => fs.relink q (p' ++ q.drop p.length)) fs

/-- No name is below a path. -/
def emptyDir (fs : FileTree) (p : Path) : Bool :=
  fs.names.keys.all (fun q => !(p.isPrefixOf q && q != p))

/-- `rename`. The flag is whether that worked. -/
def rename (fs : FileTree) (src dst : String) : FileTree × Bool :=
  match fs.resolve src, fs.resolve dst with
  | some p, some p' =>
    if fs.sys.moves p p' then
      match fs.entry p, fs.entry p' with
      | some (.file _), none => (fs.relinkAll p p', true)
      | some (.file inode), some (.file inode') =>
        -- Two names of one file are left as they are.
        if inode = inode' then (fs, true) else (fs.relinkAll p p', true)
      | some .dir, none =>
        if p.isPrefixOf p' then (fs, false) else (fs.relinkAll p p', true)
      | some .dir, some .dir =>
        if p = p' then (fs, true)
        else if p.isPrefixOf p' || !fs.emptyDir p' then (fs, false)
        else (fs.relinkAll p p', true)
      | _, _ => (fs, false)
    else (fs, false)
  | _, _ => (fs, false)

/-- The names in a directory, none when the path is not one. -/
def readDir (fs : FileTree) (p : Path) : Option (List (String × Entry)) :=
  if fs.entry p = some .dir then
    some (fs.names.entries.filterMap (fun e =>
      match e.1.getLast? with
      | some name => if e.1 = p ++ [name] then some (name, e.2) else none
      | none => none))
  else none

variable (fs : FileTree)

theorem data_makeDirs (cur : Path) (cs : List String) : (fs.makeDirs cur cs).1.data = fs.data := by
  -- By the steps of the walk, of which only the last case creates anything.
  induction cs generalizing fs cur with
  | nil => rfl
  | cons c rest ih =>
      unfold makeDirs
      by_cases hdir : fs.entry cur = some .dir
      · rw [if_pos hdir]
        by_cases hdot : c = "" ∨ c = "."
        · rw [if_pos hdot]
          exact ih fs cur
        · rw [if_neg hdot]
          by_cases hup : c = ".."
          · rw [if_pos hup]
            exact ih fs _
          · rw [if_neg hup]
            cases hentry : fs.entry (cur ++ [c]) with
            | none =>
                simp only
                split
                · exact ih _ _
                · rfl
            | some e =>
                cases e with
                | dir => exact ih fs _
                | file inode => rfl
      · rw [if_neg hdir]

theorem data_createDirAll (p : String) : (fs.createDirAll p).1.data = fs.data := by
  unfold createDirAll
  split
  · rfl
  · exact fs.data_makeDirs _ _

theorem data_remove (p : Path) : (fs.remove p).1.data = fs.data := by
  unfold remove
  split
  · split <;> rfl
  · rfl

theorem data_relink (p p' : Path) : (fs.relink p p').data = fs.data := by
  unfold relink
  split <;> rfl

theorem data_relinkAll (p p' : Path) : (fs.relinkAll p p').data = fs.data := by
  unfold relinkAll
  induction fs.names.keys.filter (fun q => p.isPrefixOf q) generalizing fs with
  | nil => rfl
  | cons q rest ih =>
      rw [List.foldl_cons, ih, data_relink]

theorem data_rename (src dst : String) : (fs.rename src dst).1.data = fs.data := by
  unfold rename
  cases fs.resolve src with
  | none => rfl
  | some p =>
      cases fs.resolve dst with
      | none => rfl
      | some p' =>
          simp only
          split
          · split
            · exact fs.data_relinkAll p p'
            · split
              · rfl
              · exact fs.data_relinkAll p p'
            · split
              · rfl
              · exact fs.data_relinkAll p p'
            · split
              · rfl
              · split
                · rfl
                · exact fs.data_relinkAll p p'
            · rfl
          · rfl

/-- A write changes the time of an inode only to the time of the write. -/
theorem mtime_le_write (now : Nat) (p content : String) (inode since : Nat) (hnow : since ≤ now)
    (hmtime : since ≤ (fs.data inode).mtime) :
    since ≤ ((fs.write now p content).1.data inode).mtime := by
  have hstore : ∀ i, since ≤ (Function.update fs.data i ⟨content, now⟩ inode).mtime := by
    intro i
    by_cases hi : inode = i
    · rw [hi, Function.update_self]
      exact hnow
    · rw [Function.update_of_ne hi]
      exact hmtime
  unfold write
  cases fs.resolve p with
  | none => exact hmtime
  | some path =>
      simp only
      split
      · cases fs.entry path with
        | none => exact hstore fs.next
        | some e =>
            cases e with
            | dir => exact hmtime
            | file i => exact hstore i
      · exact hmtime

theorem entry_link_self (path : Path) (e : Entry) (he : ∀ inode, e = .file inode → inode < fs.next)
    (hpath : path ≠ []) : (fs.link path e he).entry path = some e := by
  unfold entry
  split
  · exact absurd rfl hpath
  · exact AList.lookup_insert fs.names

/-- What a written path leads to afterwards was written at that time. -/
theorem mtime_of_write (now : Nat) (p content : String) (path : Path) (inode : Nat)
    (hpath : fs.resolve p = some path) (hwritten : (fs.write now p content).2 = true)
    (hentry : (fs.write now p content).1.entry path = some (.file inode)) :
    ((fs.write now p content).1.data inode).mtime = now := by
  unfold write at *
  rw [hpath] at *
  simp only at *
  have haccepts : fs.sys.accepts path = true := by
    by_contra hnot
    rw [if_neg hnot] at hwritten
    exact absurd hwritten (by simp)
  rw [if_pos haccepts] at *
  cases he : fs.entry path with
  | none =>
      -- The file is new and its inode the next free one.
      have hne : path ≠ [] := by
        intro hnil
        rw [hnil] at he
        exact absurd he (by simp [entry])
      simp only [he] at hentry ⊢
      have hself := entry_link_self { fs with
        next := fs.next + 1
        inode_lt := fun path inode h => Nat.lt_succ_of_lt (fs.inode_lt path inode h) }
        path (.file fs.next) (fun _ h => Entry.file.inj h ▸ Nat.lt_succ_self fs.next) hne
      have hinode : inode = fs.next := (Entry.file.inj (Option.some.inj (hself.symm.trans hentry))).symm
      rw [hinode]
      simp [store]
  | some e =>
      cases e with
      | dir =>
          rw [he] at hwritten
          exact absurd hwritten (by simp)
      | file i =>
          -- The file keeps its inode, which is overwritten.
          simp only [he] at hentry ⊢
          have hinode : inode = i := (Entry.file.inj (Option.some.inj (he.symm.trans hentry))).symm
          rw [hinode]
          simp [store]

theorem entry_of_mem_readDir {p : Path} {names : List (String × Entry)} {name : String} {e : Entry}
    (hnames : fs.readDir p = some names) (hmem : (name, e) ∈ names) :
    fs.entry (p ++ [name]) = some e := by
  unfold readDir at hnames
  split at hnames
  · rw [← Option.some.inj hnames, List.mem_filterMap] at hmem
    rcases hmem with ⟨⟨path, e'⟩, hmem, heq⟩
    have hlookup := AList.mem_lookup_iff.mpr hmem
    simp only at heq
    split at heq
    · split at heq
      · next hpath =>
          simp only [Option.some.injEq, Prod.mk.injEq] at heq
          rw [hpath, heq.1, heq.2] at hlookup
          unfold entry
          split
          · next hnil => exact absurd hnil (by simp)
          · exact hlookup
      · exact absurd heq (by simp)
    · exact absurd heq (by simp)
  · exact absurd hnames (by simp)

/-- Creating names leaves a walk through directories as it is. -/
theorem walk_of_entry {fs fs' : FileTree}
    (hdir : ∀ q, fs.entry q = some .dir → fs'.entry q = some .dir) (cur : Path) (cs : List String)
    (path : Path) (hwalk : fs.walk cur cs = some path) : fs'.walk cur cs = some path := by
  induction cs generalizing cur with
  | nil => exact hwalk
  | cons c rest ih =>
      unfold walk at hwalk ⊢
      by_cases hcur : fs.entry cur = some .dir
      · rw [if_pos hcur] at hwalk
        rw [if_pos (hdir cur hcur)]
        split
        · next h => rw [if_pos h] at hwalk; exact ih _ hwalk
        · next h =>
            rw [if_neg h] at hwalk
            split
            · next h => rw [if_pos h] at hwalk; exact ih _ hwalk
            · next h => rw [if_neg h] at hwalk; exact ih _ hwalk
      · rw [if_neg hcur] at hwalk
        exact absurd hwalk (by simp)

theorem entry_dir_write (now : Nat) (p content : String) (q : Path)
    (hdir : fs.entry q = some .dir) : (fs.write now p content).1.entry q = some .dir := by
  unfold write
  split
  · exact hdir
  · next path _ =>
      split
      · split
        · exact hdir
        · exact hdir
        · next hnone =>
            -- The new name is none of the directories.
            have hne : q ≠ path := by
              intro heq
              rw [heq, hnone] at hdir
              exact absurd hdir (by simp)
            cases q with
            | nil => rfl
            | cons c rest => exact (AList.lookup_insert_ne hne).trans hdir
      · exact hdir

theorem sys_write (now : Nat) (p content : String) : (fs.write now p content).1.sys = fs.sys := by
  unfold write
  split
  · rfl
  · split
    · split <;> rfl
    · rfl

theorem resolve_write (now : Nat) (p content p' : String) (path : Path)
    (hpath : fs.resolve p' = some path) :
    (fs.write now p content).1.resolve p' = some path := by
  unfold resolve base at hpath ⊢
  rw [sys_write]
  split at hpath
  · exact absurd hpath (by simp)
  · next hne =>
      rw [if_neg hne]
      exact walk_of_entry (fs.entry_dir_write now p content) _ _ _ hpath

/-- Removing one name leaves the others. -/
theorem entry_remove_of_ne (p path : Path) (hne : path ≠ p) :
    (fs.remove p).1.entry path = fs.entry path := by
  unfold remove
  split
  · split
    · unfold entry
      split
      · rfl
      · exact AList.lookup_erase_ne hne
    · rfl
  · rfl

end FileTree
