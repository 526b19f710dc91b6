import Mathlib.Data.List.Count
import VectorGuard.Lib.FilePaths

/-!
# Names in File Trees

What writing, removing and moving files does to single names, and what a listing
holds.

Every operation is described by the names it changes: writing changes one name,
moving a file changes two, and all other names lead where they led. None of them
touches a directory that is in use, so paths lead to the same places.

## Main definitions

* `Written`, `Moved`: What a write and a move that work do.
* `fileAt`: The file at a path, with what it holds.

## Theorems

* `written_of_write`, `moved_of_rename`: What a write and a move do.
* `write_refused`, `rename_refused`: What is refused changes nothing.
* `Written.fileAt_of_ne`, `Moved.fileAt_of_ne`: The files that stay as they are.
* `mem_readDir_iff`, `nodup_readDir`: What a listing holds.
-/

namespace FileTree

/-! ## Writing, removing and moving files -/

section Files

variable {fs fs' : FileTree}

/-- What a write that works does: one name leads to the file, new or not, and the
    file has the contents. -/
structure Written (fs fs' : FileTree) (now : Nat) (content : String) (path : Path)
    (inode : Nat) : Prop where
  entry_self : fs'.entry path = some (.file inode)
  entry_of_ne : ∀ q, q ≠ path → fs'.entry q = fs.entry q
  data : fs'.data = Function.update fs.data inode { content, mtime := now }
  sys : fs'.sys = fs.sys
  accepted : fs.sys.accepts path = true
  before : (fs.entry path = none ∧ inode = fs.next) ∨ fs.entry path = some (.file inode)

theorem written_of_write {now : Nat} {p content : String} (h : fs.write now p content = (fs', true)) :
    ∃ path inode, fs.resolve p = some path ∧ Written fs fs' now content path inode := by
  unfold write at h
  cases hpath : fs.resolve p with
  | none =>
      rw [hpath] at h
      exact absurd (congrArg Prod.snd h) (by simp)
  | some path =>
      rw [hpath] at h
      simp only at h
      have haccepts : fs.sys.accepts path = true := by
        by_contra hnot
        rw [if_neg hnot] at h
        exact absurd (congrArg Prod.snd h) (by simp)
      rw [if_pos haccepts] at h
      cases hentry : fs.entry path with
      | none =>
          rw [hentry] at h
          have hfs := congrArg Prod.fst h
          simp only at hfs
          have hne : path ≠ [] := entry_ne_nil (by rw [hentry]; simp)
          refine ⟨path, fs.next, rfl, ?_⟩
          -- The new inode is the first that is not in use.
          have hnext : ∀ inode, Entry.file fs.next = .file inode → inode < fs.next + 1 :=
            fun _ h => Entry.file.inj h ▸ Nat.lt_succ_self fs.next
          rw [← hfs]
          refine ⟨entry_link_self _ path (.file fs.next) hnext hne,
            fun q hq => entry_link_of_ne hnext hq, rfl, rfl, haccepts, .inl ⟨hentry, rfl⟩⟩
      | some e =>
          cases e with
          | dir =>
              rw [hentry] at h
              exact absurd (congrArg Prod.snd h) (by simp)
          | file inode =>
              rw [hentry] at h
              have hfs := congrArg Prod.fst h
              simp only at hfs
              refine ⟨path, inode, rfl, ?_⟩
              rw [← hfs]
              exact ⟨hentry, fun _ _ => rfl, rfl, rfl, haccepts, .inr hentry⟩

/-- A write works where its path leads, the name is accepted and no directory is in its
    way. -/
theorem write_ok_iff (now : Nat) (p content : String) :
    (fs.write now p content).2 = true ↔
      ∃ path, fs.resolve p = some path ∧ fs.sys.accepts path = true ∧
        fs.entry path ≠ some .dir := by
  unfold write
  cases fs.resolve p with
  | none => simp
  | some path =>
      simp only [Option.some.injEq, exists_eq_left']
      by_cases haccepts : fs.sys.accepts path = true
      · rw [if_pos haccepts]
        cases fs.entry path with
        | none => simp [haccepts]
        | some e => cases e <;> simp [haccepts]
      · simp [haccepts]

theorem Written.kept_dir {now : Nat} {content : String} {path : Path} {inode : Nat}
    (h : Written fs fs' now content path inode) (q : Path) :
    fs'.entry q = some .dir ↔ fs.entry q = some .dir := by
  by_cases hq : q = path
  · rw [hq, h.entry_self]
    rcases h.before with ⟨hnone, _⟩ | hfile
    · rw [hnone]
      simp
    · rw [hfile]
  · rw [h.entry_of_ne q hq]

theorem Written.resolve {now : Nat} {content : String} {path : Path} {inode : Nat}
    (h : Written fs fs' now content path inode) {p : String} {q : Path}
    (hq : fs.resolve p = some q) : fs'.resolve p = some q :=
  (resolve_congr h.kept_dir h.sys p).trans hq

theorem Written.place {now : Nat} {content : String} {path : Path} {inode : Nat}
    (h : Written fs fs' now content path inode) {p : String} {q : Path}
    (hq : fs.place p = some q) : fs'.place p = some q :=
  h.resolve hq

/-- An inode that a path leads to is in use. -/
theorem inode_lt_of_entry (fs : FileTree) {path : Path} {inode : Nat}
    (h : fs.entry path = some (.file inode)) : inode < fs.next := by
  cases path with
  | nil => exact absurd h (by simp [entry])
  | cons c rest => exact fs.inode_lt _ inode h

theorem WellFormed.written {now : Nat} {content : String} {path : Path} {name : String}
    {inode : Nat} (hwell : WellFormed fs) (h : Written fs fs' now content (path ++ [name]) inode)
    (hdir : fs.entry path = some .dir) : WellFormed fs' := by
  have hinode : ∀ q, q ≠ path ++ [name] → fs'.entry q ≠ some (.file inode) := by
    intro q hq hentry
    rw [h.entry_of_ne q hq] at hentry
    rcases h.before with ⟨_, hnext⟩ | hfile
    · -- A new file has an inode of its own.
      have hlt := fs.inode_lt_of_entry hentry
      omega
    · exact hq (hwell.unique q _ inode hentry hfile)
  refine ⟨fun q c hq => ?_, fun q q' i hq hq' => ?_⟩
  · rw [h.kept_dir]
    by_cases heq : q ++ [c] = path ++ [name]
    · rw [(List.append_inj' heq rfl).1]
      exact hdir
    · rw [h.entry_of_ne _ heq] at hq
      exact hwell.parent q c hq
  · by_cases heq : q = path ++ [name]
    · rw [heq, h.entry_self, Option.some.injEq, Entry.file.injEq] at hq
      by_cases heq' : q' = path ++ [name]
      · rw [heq, heq']
      · exact absurd (hq ▸ hq') (hinode q' heq')
    · by_cases heq' : q' = path ++ [name]
      · rw [heq', h.entry_self, Option.some.injEq, Entry.file.injEq] at hq'
        exact absurd (hq' ▸ hq) (hinode q heq)
      · rw [h.entry_of_ne q heq] at hq
        rw [h.entry_of_ne q' heq'] at hq'
        exact hwell.unique q q' i hq hq'

theorem entry_eq_lookup (fs : FileTree) {path : Path} (hne : path ≠ []) :
    fs.entry path = fs.names.lookup path := by
  cases path with
  | nil => exact absurd rfl hne
  | cons c rest => rfl

/-- A file whose name can be taken away is removed. -/
theorem remove_eq {path : Path} {inode : Nat} (h : fs.entry path = some (.file inode))
    (haccepts : fs.sys.accepts path = true) : fs.remove path = (fs.unlink path, true) := by
  unfold remove
  rw [h]
  simp only
  rw [if_pos haccepts]

/-- A removal works where there is a file whose name can be taken away. -/
theorem remove_ok_iff (path : Path) :
    (fs.remove path).2 = true ↔
      (∃ inode, fs.entry path = some (.file inode)) ∧ fs.sys.accepts path = true := by
  unfold remove
  cases fs.entry path with
  | none => simp
  | some e =>
      cases e with
      | dir => simp
      | file inode =>
          simp only
          split
          · next haccepts => simp [haccepts]
          · next hrefused => simp [hrefused]

/-- What cannot be removed is left. -/
theorem remove_refused {path : Path} (h : (fs.remove path).2 = false) :
    fs.remove path = (fs, false) := by
  unfold remove at h ⊢
  split
  · next hfile =>
      rw [hfile] at h
      simp only at h
      split
      · next haccepts =>
          rw [if_pos haccepts] at h
          exact absurd h (by simp)
      · rfl
  · rfl

theorem entry_remove {path : Path} {inode : Nat} (h : fs.entry path = some (.file inode))
    (haccepts : fs.sys.accepts path = true) :
    (fs.remove path).1.entry path = none ∧
      ∀ q, q ≠ path → (fs.remove path).1.entry q = fs.entry q := by
  have hne : path ≠ [] := entry_ne_nil (by rw [h]; simp)
  refine ⟨?_, fun q hq => fs.entry_remove_of_ne path q hq⟩
  rw [remove_eq h haccepts, entry_eq_lookup _ hne]
  exact AList.lookup_erase path fs.names

/-- Nothing is below a file. -/
theorem WellFormed.not_below (hwell : WellFormed fs) {path rest : Path} {inode : Nat}
    (hfile : fs.entry path = some (.file inode)) (hbelow : fs.entry (path ++ rest) ≠ none) :
    rest = [] := by
  -- By induction on what is below it, from the far end: its directory is below it too.
  induction rest using List.reverseRecOn with
  | nil => rfl
  | append_singleton rest name ih =>
      rw [← List.append_assoc] at hbelow
      have hdir := hwell.parent _ name hbelow
      have hrest := ih (by rw [hdir]; simp)
      rw [hrest, List.append_nil, hfile] at hdir
      exact absurd hdir (by simp)

/-- Moving all names at or below a file moves the one name of the file. -/
theorem relinkAll_file (hwell : WellFormed fs) {path : Path} {inode : Nat}
    (hfile : fs.entry path = some (.file inode)) (path' : Path) :
    fs.relinkAll path path' = fs.relink path path' := by
  have hne : path ≠ [] := entry_ne_nil (by rw [hfile]; simp)
  have hmem : path ∈ fs.names.keys := by
    rw [← AList.mem_keys, ← AList.lookup_isSome, ← entry_eq_lookup fs hne, hfile]
    rfl
  -- Nothing is below a file, so the only name that starts with its name is its own.
  have hfilter : fs.names.keys.filter (fun q => path.isPrefixOf q) = [path] := by
    have hcongr : fs.names.keys.filter (fun q => path.isPrefixOf q)
        = fs.names.keys.filter (fun q => decide (q = path)) := by
      refine List.filter_congr (fun q hq => ?_)
      rw [Bool.eq_iff_iff, List.isPrefixOf_iff_prefix, decide_eq_true_eq]
      constructor
      · intro hpre
        rcases hpre with ⟨rest, rfl⟩
        have hbelow : fs.entry (path ++ rest) ≠ none := by
          rw [entry_eq_lookup fs (by simp [hne])]
          rw [← AList.mem_keys, ← AList.lookup_isSome] at hq
          exact Option.isSome_iff_ne_none.mp hq
        rw [hwell.not_below hfile hbelow, List.append_nil]
      · intro heq
        exact ⟨[], by rw [heq, List.append_nil]⟩
    rw [hcongr, List.filter_eq, List.count_eq_one_of_mem fs.names.keys_nodup hmem,
      List.replicate_one]
  unfold relinkAll
  rw [hfilter, List.foldl_cons, List.foldl_nil, List.drop_length, List.append_nil]

/-- What moving a file does: the file is at the new name and not at the old. -/
structure Moved (fs fs' : FileTree) (path path' : Path) (inode : Nat) : Prop where
  entry_dst : fs'.entry path' = some (.file inode)
  entry_src : path ≠ path' → fs'.entry path = none
  entry_of_ne : ∀ q, q ≠ path → q ≠ path' → fs'.entry q = fs.entry q
  before : fs.entry path' ≠ some .dir
  sys : fs'.sys = fs.sys
  moves : fs.sys.moves path path' = true

theorem moved_relink {path path' : Path} {inode : Nat} (hfile : fs.entry path = some (.file inode))
    (hbefore : fs.entry path' ≠ some .dir) (hmoves : fs.sys.moves path path' = true) :
    Moved fs (fs.relink path path') path path' inode := by
  have hne : path ≠ [] := entry_ne_nil (by rw [hfile]; simp)
  have hlookup : fs.names.lookup path = some (.file inode) := by
    rw [← entry_eq_lookup fs hne, hfile]
  -- The name goes away before the new one comes.
  have hrelink : ∃ he, fs.relink path path' = (fs.unlink path).link path' (.file inode) he := by
    unfold relink
    split
    · next h =>
        rw [hlookup] at h
        exact absurd h (by simp)
    · next e h =>
        rw [hlookup, Option.some.injEq] at h
        subst h
        exact ⟨fun i he => fs.inode_lt path i (by rw [hlookup, he]), rfl⟩
  rcases hrelink with ⟨he, hrelink⟩
  have hunlink : ∀ q, q ≠ path → (fs.unlink path).entry q = fs.entry q := by
    intro q hq
    cases q with
    | nil => rfl
    | cons c rest => exact AList.lookup_erase_ne hq
  rw [hrelink]
  refine ⟨entry_link_self _ path' _ he (entry_ne_nil hbefore), fun hpath => ?_, fun q hq hq' => ?_,
    hbefore, rfl, hmoves⟩
  · rw [entry_link_of_ne he hpath, entry_eq_lookup _ hne]
    exact AList.lookup_erase path fs.names
  · rw [entry_link_of_ne he hq', hunlink q hq]

/-- Moving a file that works, in a tree without links. -/
theorem moved_of_rename (hwell : WellFormed fs) {src dst : String} {path : Path} {inode : Nat}
    (hsrc : fs.resolve src = some path) (hfile : fs.entry path = some (.file inode))
    (h : fs.rename src dst = (fs', true)) :
    ∃ path', fs.resolve dst = some path' ∧ Moved fs fs' path path' inode := by
  unfold rename at h
  rw [hsrc] at h
  cases hdst : fs.resolve dst with
  | none =>
      rw [hdst] at h
      exact absurd (congrArg Prod.snd h) (by simp)
  | some path' =>
      rw [hdst] at h
      refine ⟨path', rfl, ?_⟩
      simp only [hfile] at h
      have hmoves : fs.sys.moves path path' = true := by
        by_contra hnot
        rw [if_neg hnot] at h
        exact absurd (congrArg Prod.snd h) (by simp)
      rw [if_pos hmoves] at h
      cases hentry : fs.entry path' with
      | none =>
          rw [hentry] at h
          have hfst : fs.relinkAll path path' = fs' := congrArg Prod.fst h
          rw [← hfst, relinkAll_file hwell hfile]
          exact moved_relink hfile (by rw [hentry]; simp) hmoves
      | some e =>
          cases e with
          | dir =>
              rw [hentry] at h
              exact absurd (congrArg Prod.snd h) (by simp)
          | file inode' =>
              rw [hentry] at h
              simp only at h
              by_cases hsame : inode = inode'
              · -- One inode has one name, so the file is where it is moved to.
                rw [if_pos hsame] at h
                have hpath := hwell.unique path path' inode hfile (hsame ▸ hentry)
                have hfst : fs = fs' := congrArg Prod.fst h
                rw [← hpath] at hmoves
                rw [← hfst, ← hpath]
                exact ⟨hfile, fun hne => absurd rfl hne, fun _ _ _ => rfl, by rw [hfile]; simp, rfl,
                  hmoves⟩
              · rw [if_neg hsame] at h
                have hfst : fs.relinkAll path path' = fs' := congrArg Prod.fst h
                rw [← hfst, relinkAll_file hwell hfile]
                exact moved_relink hfile (by rw [hentry]; simp) hmoves

/-- A move of a file works where its path leads, the system lets it be moved there and no
    directory is in its way. -/
theorem rename_ok_iff {src dst : String} {path : Path} {inode : Nat}
    (hsrc : fs.resolve src = some path) (hfile : fs.entry path = some (.file inode)) :
    (fs.rename src dst).2 = true ↔
      ∃ path', fs.resolve dst = some path' ∧ fs.sys.moves path path' = true ∧
        fs.entry path' ≠ some .dir := by
  unfold rename
  rw [hsrc]
  cases fs.resolve dst with
  | none => simp
  | some path' =>
      simp only [hfile, Option.some.injEq, exists_eq_left']
      by_cases hmoves : fs.sys.moves path path' = true
      · rw [if_pos hmoves]
        cases fs.entry path' with
        | none => simp [hmoves]
        | some e =>
            cases e with
            | dir => simp
            | file inode' =>
                simp only
                split <;> simp [hmoves]
      · simp [hmoves]

/-- A move that is refused leaves everything where it is. -/
theorem rename_refused {src dst : String} (h : fs.rename src dst = (fs', false)) : fs' = fs := by
  have hkept : (fs.rename src dst).2 = false → (fs.rename src dst).1 = fs := by
    unfold rename
    split
    · split
      · split
        · exact nofun
        · split
          · exact fun _ => rfl
          · exact nofun
        · split
          · exact fun _ => rfl
          · exact nofun
        · split
          · exact fun _ => rfl
          · split
            · exact fun _ => rfl
            · exact nofun
        · exact fun _ => rfl
      · exact fun _ => rfl
    · exact fun _ => rfl
  rw [h] at hkept
  exact hkept rfl

theorem Moved.kept_dir {path path' : Path} {inode : Nat} (h : Moved fs fs' path path' inode)
    (hfile : fs.entry path = some (.file inode)) (q : Path) :
    fs'.entry q = some .dir ↔ fs.entry q = some .dir := by
  by_cases hq' : q = path'
  · rw [hq', h.entry_dst]
    exact ⟨fun hdir => absurd hdir (by simp), fun hdir => absurd hdir h.before⟩
  · by_cases hq : q = path
    · rw [hq, h.entry_src (fun heq => hq' (hq.trans heq)), hfile]
      simp
    · rw [h.entry_of_ne q hq hq']

/-! ## Files and what they hold -/

/-- The file a path leads to, with its inode and what it holds. -/
def fileAt (fs : FileTree) (path : Path) : Option (Nat × FileData) :=
  match fs.entry path with
  | some (.file inode) => some (inode, fs.data inode)
  | _ => none

theorem fileAt_of_entry {path : Path} {inode : Nat} (h : fs.entry path = some (.file inode)) :
    fs.fileAt path = some (inode, fs.data inode) := by
  unfold fileAt
  rw [h]

theorem entry_of_fileAt {path : Path} {file : Nat × FileData} (h : fs.fileAt path = some file) :
    fs.entry path = some (.file file.1) ∧ fs.data file.1 = file.2 := by
  unfold fileAt at h
  split at h
  · next inode hentry =>
      rw [← Option.some.inj h]
      exact ⟨hentry, rfl⟩
  · exact absurd h (by simp)

theorem fileAt_congr {path : Path}
    (hentry : ∀ inode, fs'.entry path = some (.file inode) ↔ fs.entry path = some (.file inode))
    (hdata : ∀ inode, fs.entry path = some (.file inode) → fs'.data inode = fs.data inode) :
    fs'.fileAt path = fs.fileAt path := by
  refine Option.ext (fun file => ⟨fun h => ?_, fun h => ?_⟩)
  · rcases entry_of_fileAt h with ⟨hfile, hheld⟩
    have hbefore := (hentry file.1).mp hfile
    rw [fileAt_of_entry hbefore, ← hdata file.1 hbefore, hheld]
  · rcases entry_of_fileAt h with ⟨hfile, hheld⟩
    rw [fileAt_of_entry ((hentry file.1).mpr hfile), hdata file.1 hfile, hheld]

/-- Adding directories touches no file. -/
theorem MoreDirs.fileAt (h : MoreDirs fs fs') (path : Path) : fs'.fileAt path = fs.fileAt path :=
  fileAt_congr (fun inode => ⟨h.file path inode, h.kept path _⟩) (fun inode _ => by rw [h.data])

/-- A write touches the one file that it writes. -/
theorem Written.fileAt_of_ne (hwell : WellFormed fs) {now : Nat} {content : String} {path : Path}
    {inode : Nat} (h : Written fs fs' now content path inode) {q : Path} (hq : q ≠ path) :
    fs'.fileAt q = fs.fileAt q := by
  refine fileAt_congr (fun i => by rw [h.entry_of_ne q hq]) (fun i hfile => ?_)
  have hne : i ≠ inode := by
    intro heq
    rcases h.before with ⟨_, hnext⟩ | hold
    · have hlt := fs.inode_lt_of_entry hfile
      omega
    · exact hq (hwell.unique q path inode (heq ▸ hfile) hold)
  rw [h.data, Function.update_of_ne hne]

/-- A write that is refused leaves everything as it is. -/
theorem write_refused {now : Nat} {p content : String} (h : fs.write now p content = (fs', false)) :
    fs' = fs := by
  have hkept : (fs.write now p content).2 = false → (fs.write now p content).1 = fs := by
    unfold write
    split
    · exact fun _ => rfl
    · split
      · split
        · exact fun _ => rfl
        · exact nofun
        · exact nofun
      · exact fun _ => rfl
  rw [h] at hkept
  exact hkept rfl

/-- A move touches the name the file had and the one it gets. -/
theorem Moved.fileAt_of_ne {path path' : Path} {inode : Nat} (h : Moved fs fs' path path' inode)
    (hdata : fs'.data = fs.data) {q : Path} (hq : q ≠ path) (hq' : q ≠ path') :
    fs'.fileAt q = fs.fileAt q :=
  fileAt_congr (fun i => by rw [h.entry_of_ne q hq hq']) (fun i _ => by rw [hdata])

/-! ## Listing a directory -/

/-- What one name of the tree is in the listing of a directory. -/
theorem mem_readDir_iff {path : Path} {names : List (String × Entry)}
    (hnames : fs.readDir path = some names) (name : String) (e : Entry) :
    (name, e) ∈ names ↔ fs.entry (path ++ [name]) = some e := by
  refine ⟨fs.entry_of_mem_readDir hnames, fun hentry => ?_⟩
  unfold readDir at hnames
  split at hnames
  · rw [← Option.some.inj hnames, List.mem_filterMap]
    rw [entry_eq_lookup fs (by simp)] at hentry
    refine ⟨⟨path ++ [name], e⟩, AList.mem_lookup_iff.mp hentry, ?_⟩
    simp
  · exact absurd hnames (by simp)

theorem readDir_isSome {path : Path} (h : fs.entry path = some .dir) :
    ∃ names, fs.readDir path = some names := by
  unfold readDir
  rw [if_pos h]
  exact ⟨_, rfl⟩

theorem mem_child {path q : Path} {name : String}
    (h : name ∈ match q.getLast? with
      | some name => if q = path ++ [name] then some name else none
      | none => none) : q = path ++ [name] := by
  cases hlast : q.getLast? with
  | none =>
      rw [hlast] at h
      exact absurd h (by simp)
  | some last =>
      rw [hlast] at h
      simp only at h
      split at h
      · next heq =>
          rw [heq, Option.mem_some_iff.mp h]
      · exact absurd h (by simp)

/-- No name is listed twice. -/
theorem nodup_readDir {path : Path} {names : List (String × Entry)}
    (hnames : fs.readDir path = some names) : (names.map Prod.fst).Nodup := by
  unfold readDir at hnames
  split at hnames
  · -- The listing is a selection of the names, each under its last component.
    have hnames : names.map Prod.fst = fs.names.keys.filterMap (fun q => match q.getLast? with
        | some name => if q = path ++ [name] then some name else none
        | none => none) := by
      rw [← Option.some.inj hnames, List.map_filterMap]
      have hkeys : fs.names.keys = fs.names.entries.map Sigma.fst := rfl
      rw [hkeys, List.filterMap_map]
      refine List.filterMap_congr (fun e _ => ?_)
      simp only [Function.comp_apply]
      cases e.1.getLast? with
      | none => rfl
      | some name =>
          simp only
          split <;> rfl
    rw [hnames]
    refine fs.names.keys_nodup.filterMap (fun q q' name hq hq' => ?_)
    rw [mem_child hq, mem_child hq']
  · exact absurd hnames (by simp)

/-- A listing after a file was moved into the directory: the name it got, and the others
    that were there but for the one it had. -/
theorem Moved.perm_readDir {path dir : Path} {name : String} {inode : Nat}
    {names names' : List (String × Entry)} (h : Moved fs fs' path (dir ++ [name]) inode)
    (hne : path ≠ dir ++ [name]) (hnames : fs.readDir dir = some names)
    (hnames' : fs'.readDir dir = some names') :
    names'.Perm ((name, .file inode) ::
      names.filter (fun e => e.1 ≠ name ∧ dir ++ [e.1] ≠ path)) := by
  have hnodup := List.Nodup.of_map _ (nodup_readDir hnames)
  have hnew : (name, Entry.file inode) ∉
      names.filter (fun e => e.1 ≠ name ∧ dir ++ [e.1] ≠ path) :=
    fun hmem => (of_decide_eq_true (List.mem_filter.mp hmem).2).1 rfl
  refine (List.perm_ext_iff_of_nodup (List.Nodup.of_map _ (nodup_readDir hnames'))
    (List.nodup_cons.mpr ⟨hnew, hnodup.filter _⟩)).mpr ?_
  -- Neither list repeats a name, so it is enough to have the same members.
  rintro ⟨n, e⟩
  rw [mem_readDir_iff hnames', List.mem_cons, List.mem_filter, mem_readDir_iff hnames,
    decide_eq_true_eq, Prod.mk.injEq]
  by_cases hname : n = name
  · rw [hname, h.entry_dst, Option.some.injEq]
    constructor
    · intro he
      exact .inl ⟨rfl, he.symm⟩
    · rintro (⟨_, he⟩ | ⟨_, hother, _⟩)
      · exact he.symm
      · exact absurd rfl hother
  · have hdst : dir ++ [n] ≠ dir ++ [name] := by
      intro heq
      exact hname (List.singleton_inj.mp (List.append_cancel_left heq))
    by_cases hpath : dir ++ [n] = path
    · rw [hpath, h.entry_src hne]
      simp [hname]
    · rw [h.entry_of_ne _ hpath hdst]
      simp [hname, hpath]

theorem filter_eq_singleton {α β : Type*} [DecidableEq β] {f : α → β} {l : List α} {a : α}
    (hnodup : (l.map f).Nodup) (hmem : a ∈ l) : l.filter (fun x => f x = f a) = [a] := by
  rcases List.append_of_mem hmem with ⟨front, back, rfl⟩
  rw [List.map_append, List.map_cons, List.nodup_middle, List.nodup_cons, List.mem_append] at hnodup
  have hother : ∀ l' : List α, f a ∉ l'.map f → l'.filter (fun x => f x = f a) = [] := by
    intro l' hl'
    refine List.filter_eq_nil_iff.mpr (fun x hx heq => hl' ?_)
    exact List.mem_map.mpr ⟨x, hx, of_decide_eq_true heq⟩
  rw [List.filter_append, List.filter_cons, if_pos (decide_eq_true rfl),
    hother front (fun h => hnodup.1 (.inl h)), hother back (fun h => hnodup.1 (.inr h)),
    List.nil_append]

/-- One name of a directory is listed once. -/
theorem filter_readDir {path : Path} {names : List (String × Entry)}
    (hnames : fs.readDir path = some names) {name : String} {e : Entry}
    (hentry : fs.entry (path ++ [name]) = some e) :
    names.filter (fun entry => entry.1 = name) = [(name, e)] :=
  filter_eq_singleton (nodup_readDir hnames) ((mem_readDir_iff hnames name e).mpr hentry)

end Files

end FileTree
