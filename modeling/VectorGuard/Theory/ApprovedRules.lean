import VectorGuard.Theory.ListingOrder
import VectorGuard.Theory.StagedListing

/-!
# Approved Rules

Which rules a reviewer approves with a proposal.

A proposal is shown as the first rule of its file, and approving it moves the file, which
the rule engine reads to its end. The file goes to a name that its id gives, and whatever
file had that name is gone. So approving adds all rules of one file to what is read and
takes those of another away, and that is the rule that was shown if the further rules of
the first file are the rules of the second.

No file is moved to a name that is too long or to another file system, and a directory
that is configured as the empty string is never read. A directory that cannot be read yet
has no rules. It is created for the move, and then
holds the moved file only, except where its path goes up again from a component that had
to be created: there may be a directory with rules in the place it leads to.

## Main definitions

* `fileRules`: What is read from the files of a directory.
* `ApprovesShown`: Approving a proposal adds the rule that was shown and nothing else.
* `AddsShown`: When it does.

## Theorems

* `exists_proposal`: Where the file of a listed proposal is and what is in it.
* `perm_rules_approved`: What is loaded after a proposal was approved.
* `approvesShown_iff`: When a reviewer approves what was shown.
* `second_rule_not_shown`: A file with two rules.
-/

namespace VectorGuard

open FileTree

variable (fromStr : String → Option RuleSet)

/-- What is read from the files of a directory. -/
def fileRules (fs : FileTree) (dir : String) : List Rule :=
  ((rulesListing fs dir).getD []).flatMap (entryRules fromStr)

/-- The rules that are loaded from a directory are those of its files, and the built-in
    ones if there are none. -/
theorem rules_loadDir_rulesListing (fs : FileTree) (dir : String) :
    (RuleSet.loadDir fromStr (rulesListing fs dir)).rules =
      if fileRules fromStr fs dir = [] then builtinRules else fileRules fromStr fs dir := by
  unfold fileRules
  cases rulesListing fs dir with
  | none => rfl
  | some entries => exact rules_loadDir fromStr entries

/-- The rules in the file that a path leads to, none where there is no file. -/
def rulesAt (fs : FileTree) (p : String) : List Rule :=
  match fs.lookup p with
  | some (.file inode) => ((fromStr (fs.data inode).content).map RuleSet.rules).getD []
  | _ => []

variable (store : ApprovalStore) (fs : FileTree)

/-- What is read from the other files in the approved directory than the approved file of
    an id and the proposal itself. -/
def otherRules (id : String) : List Rule :=
  ((fs.resolve store.approvedDir).map (fun dir => ((fs.readDir dir).getD []).filter (fun e =>
    e.1 ≠ "ai-approved-" ++ id ++ ".toml" ∧
      some (dir ++ [e.1]) ≠ fs.resolve (store.pendingFile id))))
    |>.getD [] |>.flatMap (fun e => (readEntry fs e).rules fromStr)

/-- Approving a proposal works, and the rules that are loaded then are those of the files
    in the approved directory before, and the one that was shown. -/
def ApprovesShown (item : PendingItem) : Prop :=
  ∃ fs' dst, store.approve fs item.id = (fs', .ok dst) ∧
    (RuleSet.loadDir fromStr (rulesListing fs' store.approvedDir)).rules.Perm
      (item.rule :: fileRules fromStr fs store.approvedDir)

/-- The approved directory has a path, and is there or can be created, the system lets the
    file be moved there, and no directory has the name of the approved file. If it can be
    read already, it is not the pending one, and the rules behind the first one of the
    proposal are those of the approved file that goes. If not, there are no such rules, and
    none in the directory that it leads to then. -/
structure AddsShown (id : String) : Prop where
  nonempty : store.approvedDir ≠ ""
  created : (fs.createDirAll store.approvedDir).2 = true
  moves : ∀ src dst, fs.resolve (store.pendingFile id) = some src →
    (fs.createDirAll store.approvedDir).1.resolve (store.approvedFile id) = some dst →
    fs.sys.moves src dst = true
  free : (fs.createDirAll store.approvedDir).1.lookup (store.approvedFile id) ≠ some .dir
  apart : rulesListing fs store.approvedDir ≠ none →
    fs.resolve store.approvedDir ≠ fs.resolve store.pendingDir
  replaced : rulesListing fs store.approvedDir ≠ none →
    (rulesAt fromStr fs (store.pendingFile id)).tail.Perm
      (rulesAt fromStr fs (store.approvedFile id))
  alone : rulesListing fs store.approvedDir = none →
    (rulesAt fromStr fs (store.pendingFile id)).tail = [] ∧
      otherRules fromStr store (fs.createDirAll store.approvedDir).1 id = []

/-- No name has a slash in it. -/
def PlainNames (fs : FileTree) : Prop := ∀ path ∈ fs.names.keys, ∀ name ∈ path, '/' ∉ name.toList

instance : Decidable (PlainNames fs) :=
  inferInstanceAs (Decidable (∀ path ∈ fs.names.keys, ∀ name ∈ path, '/' ∉ name.toList))

/-! ### Proposals -/

/-- The file of a proposal, and the rules behind the one that is shown. -/
structure Proposal (item : PendingItem) (path : Path) (inode : Nat) (rest : List Rule) : Prop where
  name : IsName (item.id ++ ".toml")
  resolve : fs.resolve store.pendingDir = some path
  isDir : fs.entry path = some .dir
  entry : fs.entry (path ++ [item.id ++ ".toml"]) = some (.file inode)
  extension : DirEntry.extension ⟨bytes (item.id ++ ".toml"), none⟩ = some (bytes "toml")
  parsed : fromStr (fs.data inode).content = some ⟨item.rule :: rest⟩

section Listed

variable {fromStr store fs} {item : PendingItem} {items : List PendingItem}

theorem PlainNames.noSlash (h : PlainNames fs) {path : Path} {name : String} {e : Entry}
    (hentry : fs.entry (path ++ [name]) = some e) : '/' ∉ name.toList := by
  rw [entry_eq_lookup fs (by simp)] at hentry
  have hmem : path ++ [name] ∈ fs.names.keys := by
    rw [← AList.mem_keys, ← AList.lookup_isSome, hentry]
    rfl
  exact h _ hmem name (List.mem_append_right path List.mem_cons_self)

/-- A listed proposal is the one of an entry of the pending directory. -/
theorem exists_entry (hlist : store.listPending fromStr fs = .ok items) (hitem : item ∈ items) :
    ∃ path name e, fs.resolve store.pendingDir = some path ∧ fs.entry path = some .dir ∧
      fs.entry (path ++ [name]) = some e ∧ store.pendingItem fromStr fs name e = some item := by
  unfold ApprovalStore.listPending at hlist
  cases hlookup : fs.lookup store.pendingDir with
  | none =>
      rw [hlookup] at hlist
      rw [← Except.ok.inj hlist] at hitem
      exact absurd hitem List.not_mem_nil
  | some found =>
      rw [hlookup] at hlist
      simp only at hlist
      cases hentries : (fs.resolve store.pendingDir).bind fs.readDir with
      | none =>
          rw [hentries] at hlist
          cases hlist
      | some entries =>
          rw [hentries] at hlist
          rcases Option.bind_eq_some_iff.mp hentries with ⟨path, hpath, hread⟩
          -- Sorting the proposals moves them and changes none.
          rw [← Except.ok.inj hlist, List.mem_mergeSort] at hitem
          rcases List.mem_filterMap.mp hitem with ⟨entry, hmem, hpending⟩
          exact ⟨path, entry.1, entry.2, hpath, isDir_of_readDir hread,
            fs.entry_of_mem_readDir hread hmem, hpending⟩

/-- An entry that has a proposal in it is listed, with its id and its rule. -/
theorem exists_listed {path : Path} {name id : String} {e : Entry} {rule : Rule}
    (hpath : fs.resolve store.pendingDir = some path) (hdir : fs.entry path = some .dir)
    (hentry : fs.entry (path ++ [name]) = some e)
    (hpending : (store.pendingItem fromStr fs name e).map (fun item => (item.id, item.rule)) =
      some (id, rule)) :
    ∃ items, store.listPending fromStr fs = .ok items ∧
      ∃ item ∈ items, item.id = id ∧ item.rule = rule := by
  rcases Option.map_eq_some_iff.mp hpending with ⟨item, hitem, heq⟩
  rcases readDir_isSome hdir with ⟨entries, hread⟩
  refine ⟨_, listPending_of_readDir hpath hdir hread, item, List.mem_mergeSort.mpr ?_, ?_⟩
  · exact List.mem_filterMap.mpr ⟨(name, e), (mem_readDir_iff hread name e).mpr hentry, hitem⟩
  · exact ⟨congrArg Prod.fst heq, congrArg Prod.snd heq⟩

/-- Every listed proposal has its file. -/
theorem exists_proposal (hplain : PlainNames fs) (hlist : store.listPending fromStr fs = .ok items)
    (hitem : item ∈ items) : ∃ path inode rest, Proposal fromStr store fs item path inode rest := by
  rcases exists_entry hlist hitem with ⟨path, name, e, hpath, hdir, hentry, hpending⟩
  rcases id_pendingItem hpending with ⟨hid, hname⟩
  rw [← hid] at hname
  subst hname
  have hname : IsName (item.id ++ ".toml") := by
    refine isName_toml (fun hslash => hplain.noSlash hentry ?_)
    rw [String.toList_append]
    exact List.mem_append_left _ hslash
  unfold ApprovalStore.pendingItem at hpending
  split at hpending
  · next hext =>
      split at hpending
      · cases hpending
      · next inode =>
          split at hpending
          · next rule rest hparsed =>
              have hrule : rule = item.rule := congrArg PendingItem.rule (Option.some.inj hpending)
              rw [hrule] at hparsed
              exact ⟨path, inode, rest, hname, hpath, hdir, hentry, hext, hparsed⟩
          · cases hpending
  · cases hpending

/-! ### Approving -/

theorem Proposal.resolve_pendingFile {path : Path} {inode : Nat} {rest : List Rule}
    (h : Proposal fromStr store fs item path inode rest) :
    fs.resolve (store.pendingFile item.id) = some (path ++ [item.id ++ ".toml"]) :=
  resolve_joinPath_of_dir h.name (fs.place_of_resolve h.resolve) h.isDir

theorem Proposal.isName_approved {path : Path} {inode : Nat} {rest : List Rule}
    (h : Proposal fromStr store fs item path inode rest) :
    IsName ("ai-approved-" ++ item.id ++ ".toml") := by
  refine isName_approved_of_noSlash (fun hslash => h.name.slash ?_)
  rw [String.toList_append]
  exact List.mem_append_left _ hslash

/-- What approving a proposal does: its file is in the approved directory then. -/
structure Approved (store : ApprovalStore) (fs fs' : FileTree) (id : String) (path dir : Path)
    (inode : Nat) : Prop where
  resolve : (fs.createDirAll store.approvedDir).1.resolve store.approvedDir = some dir
  isDir : (fs.createDirAll store.approvedDir).1.entry dir = some .dir
  data : fs'.data = (fs.createDirAll store.approvedDir).1.data
  moved : Moved (fs.createDirAll store.approvedDir).1 fs' (path ++ [id ++ ".toml"])
    (dir ++ ["ai-approved-" ++ id ++ ".toml"]) inode

variable {path : Path} {inode : Nat} {rest : List Rule}

/-- The move works unless the directory cannot be created, the system refuses it or another
    directory is in its way. -/
theorem Proposal.not_refused_iff (h : Proposal fromStr store fs item path inode rest)
    (hne : store.approvedDir ≠ "") :
    ¬ Refused store fs item.id ↔
      (fs.createDirAll store.approvedDir).2 = true ∧
        (∀ src dst, fs.resolve (store.pendingFile item.id) = some src →
          (fs.createDirAll store.approvedDir).1.resolve (store.approvedFile item.id) = some dst →
          fs.sys.moves src dst = true) ∧
        (fs.createDirAll store.approvedDir).1.lookup (store.approvedFile item.id) ≠ some .dir := by
  unfold Refused
  rw [not_or, Bool.not_eq_false, Bool.not_eq_false]
  refine and_congr_right (fun hcreated => ?_)
  have hmore := moreDirs_createDirAll fs store.approvedDir
  rcases resolve_createDirAll hne hcreated with ⟨dir, hpath, hdir⟩
  have hdst := resolve_joinPath_of_dir h.isName_approved (place_of_resolve _ hpath) hdir
  rw [rename_ok_iff (hmore.resolve h.resolve_pendingFile) (hmore.kept _ _ h.entry),
    h.resolve_pendingFile, hmore.sys]
  unfold ApprovalStore.approvedFile
  rw [FileTree.lookup_of_resolve hdst, hdst]
  simp only [Option.some.injEq, exists_eq_left']
  refine and_congr_left (fun _ => ⟨fun hmoves src dst hsrc hdst => ?_, fun hmoves =>
    hmoves _ _ rfl rfl⟩)
  rw [← hsrc, ← hdst]
  exact hmoves

theorem Proposal.lookup_ne_none (h : Proposal fromStr store fs item path inode rest) :
    fs.lookup (store.pendingFile item.id) ≠ none :=
  FileTree.lookup_ne_none_of_entry h.resolve_pendingFile h.entry

/-- A proposal that was approved has been moved. -/
theorem Proposal.approved {fs' : FileTree} {dst : String}
    (h : Proposal fromStr store fs item path inode rest) (hwell : WellFormed fs)
    (hne : store.approvedDir ≠ "") (hok : store.approve fs item.id = (fs', .ok dst)) :
    ¬ Refused store fs item.id ∧ ∃ dir, Approved store fs fs' item.id path dir inode := by
  have hmoved : ¬ Refused store fs item.id := by
    intro hrefused
    rcases approve_refused h.lookup_ne_none hrefused with ⟨e, he⟩
    rw [hok] at he
    cases congrArg Prod.snd he
  refine ⟨hmoved, ?_⟩
  -- The move was done on the tree that the directory was created in.
  rcases approve_moved h.lookup_ne_none hmoved with ⟨hcreated, fs₂, hmove, hresult⟩
  have hsame : fs₂ = fs' := congrArg Prod.fst (hresult.symm.trans hok)
  rw [hsame] at hmove
  have hmore := moreDirs_createDirAll fs store.approvedDir
  rcases resolve_createDirAll hne hcreated with ⟨dir, hpath, hdir⟩
  rcases moved_of_rename (hwell.createDirAll store.approvedDir)
    (hmore.resolve h.resolve_pendingFile) (hmore.kept _ _ h.entry) hmove with ⟨dst', hdst', hmoved'⟩
  have hdst := resolve_joinPath_of_dir h.isName_approved (place_of_resolve _ hpath) hdir
  have hplace : dst' = dir ++ ["ai-approved-" ++ item.id ++ ".toml"] :=
    Option.some.inj (hdst'.symm.trans hdst)
  rw [hplace] at hmoved'
  have hdata := (fs.createDirAll store.approvedDir).1.data_rename (store.pendingFile item.id)
    (store.approvedFile item.id)
  rw [hmove] at hdata
  exact ⟨dir, hpath, hdir, hdata, hmoved'⟩

end Listed

/-! ### Rules that are read -/

section Read

variable {fromStr store fs} {dir name : String} {path : Path} {names : List (String × Entry)}

theorem fileRules_of_readDir (hpath : fs.resolve dir = some path)
    (hnames : fs.readDir path = some names) :
    fileRules fromStr fs dir = names.flatMap (fun e => (readEntry fs e).rules fromStr) := by
  unfold fileRules rulesListing
  rw [hpath, Option.bind_some, hnames, Option.map_some, Option.getD_some, List.flatMap_map]
  rfl

/-- What is read depends on what is in the inodes. -/
theorem readEntry_congr {fs' : FileTree} (hdata : fs'.data = fs.data) (e : String × Entry) :
    readEntry fs' e = readEntry fs e := by
  unfold readEntry
  rw [hdata]

/-- What a file with the name of a rule file adds to what is read. -/
theorem rules_readEntry {inode : Nat}
    (hext : DirEntry.extension ⟨bytes name, none⟩ = some (bytes "toml")) :
    (readEntry fs (name, .file inode)).rules fromStr =
      ((fromStr (fs.data inode).content).map RuleSet.rules).getD [] := by
  have hextension : (readEntry fs (name, .file inode)).extension = some (bytes "toml") := hext
  unfold DirEntry.rules
  rw [if_pos hextension]
  unfold readEntry
  dsimp only
  cases fromStr (fs.data inode).content with
  | none => rfl
  | some rs => rfl

/-- One name of a directory adds the rules in the file it leads to. -/
theorem rules_named (hname : IsName name)
    (hext : DirEntry.extension ⟨bytes name, none⟩ = some (bytes "toml"))
    (hpath : fs.resolve dir = some path) (hdir : fs.entry path = some .dir)
    (hnames : fs.readDir path = some names) :
    (names.filter (fun e => e.1 = name)).flatMap (fun e => (readEntry fs e).rules fromStr) =
      rulesAt fromStr fs (joinPath dir name) := by
  unfold rulesAt
  rw [lookup_joinPath hname (fs.place_of_resolve hpath) hdir]
  cases hentry : fs.entry (path ++ [name]) with
  | none =>
      have hnone : names.filter (fun e => e.1 = name) = [] := by
        refine List.filter_eq_nil_iff.mpr (fun e hmem heq => ?_)
        have hfound := fs.entry_of_mem_readDir hnames hmem
        rw [of_decide_eq_true heq, hentry] at hfound
        cases hfound
      rw [hnone]
      rfl
  | some e =>
      rw [filter_readDir hnames hentry, List.flatMap_singleton]
      cases e with
      | dir =>
          -- A directory with such a name is listed and cannot be read.
          have hextension : (readEntry fs (name, .dir)).extension = some (bytes "toml") := hext
          unfold DirEntry.rules
          rw [if_pos hextension]
          rfl
      | file inode => exact rules_readEntry hext

/-- The other rules are those of the names that are neither of the two. -/
theorem otherRules_of_readDir {id : String} {src : Path}
    (hpath : fs.resolve store.approvedDir = some path) (hnames : fs.readDir path = some names)
    (hsrc : fs.resolve (store.pendingFile id) = some src) :
    otherRules fromStr store fs id =
      (names.filter (fun e => e.1 ≠ "ai-approved-" ++ id ++ ".toml" ∧ path ++ [e.1] ≠ src)).flatMap
        (fun e => (readEntry fs e).rules fromStr) := by
  unfold otherRules
  rw [hpath, Option.map_some, Option.getD_some, hnames, Option.getD_some, hsrc]
  simp only [ne_eq, Option.some.injEq]

end Read

/-! ### What was shown -/

section Shown

variable {fromStr store fs} {item : PendingItem} {items : List PendingItem} {path dir : Path}
  {inode : Nat} {rest : List Rule}

theorem Proposal.rulesAt (h : Proposal fromStr store fs item path inode rest) :
    rulesAt fromStr fs (store.pendingFile item.id) = item.rule :: rest := by
  unfold VectorGuard.rulesAt
  rw [FileTree.lookup_of_resolve h.resolve_pendingFile, h.entry]
  dsimp only
  rw [h.parsed]
  rfl

theorem extension_approved (id : String) :
    DirEntry.extension ⟨bytes ("ai-approved-" ++ id ++ ".toml"), none⟩ = some (bytes "toml") := by
  refine extension_toml (fun hempty => ?_)
  exact absurd (String.append_eq_empty_iff.mp hempty).1 (by decide)

/-- A name and the name that it is approved under differ. -/
theorem pendingName_ne_approvedName (id : String) :
    path ++ [id ++ ".toml"] ≠ dir ++ ["ai-approved-" ++ id ++ ".toml"] := by
  intro heq
  have hname := List.singleton_inj.mp (List.append_inj' heq rfl).2
  have hlength := congrArg String.length (append_cancel_right hname)
  rw [String.length_append] at hlength
  have hpre : "ai-approved-".length = 12 := rfl
  omega

/-- What is read after a proposal was approved: the rules of its file, and of the other
    files that are neither that nor what it replaced. -/
theorem perm_fileRules_approved {fs' : FileTree}
    (h : Proposal fromStr store fs item path inode rest)
    (happroved : Approved store fs fs' item.id path dir inode) :
    (fileRules fromStr fs' store.approvedDir).Perm (item.rule :: (rest ++
      otherRules fromStr store (fs.createDirAll store.approvedDir).1 item.id)) := by
  have hmore := moreDirs_createDirAll fs store.approvedDir
  have hkept := happroved.moved.kept_dir (hmore.kept _ _ h.entry)
  have hpath' : fs'.resolve store.approvedDir = some dir :=
    (resolve_congr hkept happroved.moved.sys _).trans happroved.resolve
  rcases readDir_isSome happroved.isDir with ⟨names, hnames⟩
  rcases readDir_isSome ((hkept dir).mpr happroved.isDir) with ⟨names', hnames'⟩
  -- The listing has the new name and what is left of the old one.
  have hlisting := happroved.moved.perm_readDir (pendingName_ne_approvedName item.id) hnames hnames'
  have hrules := hlisting.flatMap_right (fun e => (readEntry fs' e).rules fromStr)
  have hshown : (readEntry fs' ("ai-approved-" ++ item.id ++ ".toml", .file inode)).rules fromStr =
      item.rule :: rest := by
    rw [rules_readEntry (extension_approved item.id), happroved.data, hmore.data, h.parsed]
    rfl
  -- A move leaves what is in the files, so the others are read as before.
  rw [List.flatMap_cons, hshown] at hrules
  simp only [readEntry_congr happroved.data] at hrules
  rw [fileRules_of_readDir hpath' hnames', otherRules_of_readDir happroved.resolve hnames
    (hmore.resolve h.resolve_pendingFile)]
  simp only [readEntry_congr happroved.data]
  exact hrules

/-- The proposal has a rule, so what is loaded are the rules of the files. -/
theorem perm_rules_approved {fs' : FileTree}
    (h : Proposal fromStr store fs item path inode rest)
    (happroved : Approved store fs fs' item.id path dir inode) :
    (RuleSet.loadDir fromStr (rulesListing fs' store.approvedDir)).rules.Perm (item.rule :: (rest ++
      otherRules fromStr store (fs.createDirAll store.approvedDir).1 item.id)) := by
  have hperm := perm_fileRules_approved h happroved
  have hne : fileRules fromStr fs' store.approvedDir ≠ [] := by
    intro hempty
    rw [hempty] at hperm
    exact absurd hperm.length_eq (Nat.zero_ne_add_one _)
  rw [rules_loadDir_rulesListing, if_neg hne]
  exact hperm

/-- What is read from a directory that is there: the rules of the other files, and of those
    that are not. -/
theorem perm_fileRules_there (h : Proposal fromStr store fs item path inode rest)
    {names : List (String × Entry)} (hdir : fs.resolve store.approvedDir = some dir)
    (hnames : fs.readDir dir = some names) :
    (otherRules fromStr store fs item.id ++
        (names.filter (fun e => !decide (e.1 ≠ "ai-approved-" ++ item.id ++ ".toml" ∧
          dir ++ [e.1] ≠ path ++ [item.id ++ ".toml"]))).flatMap
            (fun e => (readEntry fs e).rules fromStr)).Perm
      (fileRules fromStr fs store.approvedDir) := by
  rw [fileRules_of_readDir hdir hnames, otherRules_of_readDir hdir hnames h.resolve_pendingFile,
    ← List.flatMap_append]
  exact (List.filter_append_perm _ names).flatMap_right _

/-- What is read from an approved directory apart from the pending one. -/
theorem perm_fileRules_apart (h : Proposal fromStr store fs item path inode rest)
    (hdir : fs.resolve store.approvedDir = some dir) (hthere : fs.entry dir = some .dir)
    (hne : dir ≠ path) :
    (otherRules fromStr store fs item.id ++ VectorGuard.rulesAt fromStr fs
      (store.approvedFile item.id)).Perm (fileRules fromStr fs store.approvedDir) := by
  rcases readDir_isSome hthere with ⟨names, hnames⟩
  have hperm := perm_fileRules_there h hdir hnames
  -- The proposal is in another directory, so only the file that goes is left out.
  have hfilter : names.filter (fun e => !decide (e.1 ≠ "ai-approved-" ++ item.id ++ ".toml" ∧
      dir ++ [e.1] ≠ path ++ [item.id ++ ".toml"])) =
        names.filter (fun e => e.1 = "ai-approved-" ++ item.id ++ ".toml") := by
    refine List.filter_congr (fun e _ => ?_)
    have hother : dir ++ [e.1] ≠ path ++ [item.id ++ ".toml"] :=
      fun heq => hne (List.append_inj' heq rfl).1
    simp [hother]
  rw [hfilter, rules_named h.isName_approved (extension_approved item.id) hdir hthere hnames]
    at hperm
  exact hperm

/-- A directory that has the proposal in it has the rules of its file. -/
theorem length_fileRules_same (h : Proposal fromStr store fs item path inode rest)
    (hsame : fs.resolve store.approvedDir = some path) :
    (otherRules fromStr store fs item.id).length + (rest.length + 1) ≤
      (fileRules fromStr fs store.approvedDir).length := by
  rcases readDir_isSome h.isDir with ⟨names, hnames⟩
  have hlength := (perm_fileRules_there h hsame hnames).length_eq
  rw [List.length_append] at hlength
  have hown : (readEntry fs (item.id ++ ".toml", .file inode)).rules fromStr =
      item.rule :: rest := by
    rw [rules_readEntry h.extension, h.parsed]
    rfl
  -- The proposal's own file is one of those that are left out of the others.
  have hmem : (item.id ++ ".toml", Entry.file inode) ∈ names.filter (fun e =>
      !decide (e.1 ≠ "ai-approved-" ++ item.id ++ ".toml" ∧
        path ++ [e.1] ≠ path ++ [item.id ++ ".toml"])) := by
    refine List.mem_filter.mpr ⟨(mem_readDir_iff hnames _ _).mpr h.entry, ?_⟩
    simp
  have hsub := List.sublist_flatten_of_mem
    (List.mem_map_of_mem (f := fun e => (readEntry fs e).rules fromStr) hmem)
  have hle := hsub.length_le
  rw [hown, List.length_cons, ← List.flatMap_def] at hle
  omega

/-- A listing of a directory is there if its path leads to one. -/
theorem rulesListing_ne_none (h : rulesListing fs store.approvedDir ≠ none) :
    ∃ dir, fs.resolve store.approvedDir = some dir ∧ fs.entry dir = some .dir := by
  rcases Option.ne_none_iff_exists'.mp h with ⟨entries, hentries⟩
  rcases (rulesListing_eq_some_iff entries).mp hentries with ⟨dir, names, hdir, hnames, _⟩
  exact ⟨dir, hdir, isDir_of_readDir hnames⟩

/-- What is read after a proposal was approved is what was read before it and its rule,
    exactly under the condition. -/
theorem addsRule_iff (h : Proposal fromStr store fs item path inode rest) :
    (rest ++ otherRules fromStr store (fs.createDirAll store.approvedDir).1 item.id).Perm
        (fileRules fromStr fs store.approvedDir) ↔
      (rulesListing fs store.approvedDir ≠ none →
        fs.resolve store.approvedDir ≠ fs.resolve store.pendingDir ∧
          rest.Perm (VectorGuard.rulesAt fromStr fs (store.approvedFile item.id))) ∧
      (rulesListing fs store.approvedDir = none →
        rest = [] ∧
          otherRules fromStr store (fs.createDirAll store.approvedDir).1 item.id = []) := by
  by_cases hlisting : rulesListing fs store.approvedDir = none
  · have hempty : fileRules fromStr fs store.approvedDir = [] := by
      unfold fileRules
      rw [hlisting]
      rfl
    simp [hlisting, hempty, List.perm_nil]
  · -- The directory is there, and creating it does nothing.
    rcases rulesListing_ne_none hlisting with ⟨dir, hpath, hthere⟩
    rw [createDirAll_of_resolve hpath hthere]
    simp only [ne_eq, hlisting, not_false_eq_true, forall_const, false_imp_iff, and_true]
    rw [hpath, h.resolve, Option.some.injEq]
    by_cases hsame : dir = path
    · -- Then the rules of the file were read before.
      have hmore := length_fileRules_same h (hsame ▸ hpath)
      refine iff_of_false (fun hperm => ?_) (fun hapart => hapart.1 hsame)
      have hlength := hperm.length_eq
      rw [List.length_append] at hlength
      omega
    · have hread := perm_fileRules_apart h hpath hthere hsame
      constructor
      · intro hperm
        have hboth := List.perm_append_comm.trans (hperm.trans hread.symm)
        exact ⟨hsame, (List.perm_append_left_iff _).mp hboth⟩
      · rintro ⟨_, hperm⟩
        exact (List.perm_append_comm.trans (hperm.append_left _)).trans hread

/-- A proposal whose file is there is approved as it was shown exactly under the condition. -/
theorem Proposal.shown_iff_adds (h : Proposal fromStr store fs item path inode rest)
    (hwell : WellFormed fs) :
    ApprovesShown fromStr store fs item ↔ AddsShown fromStr store fs item.id := by
  have htail : (VectorGuard.rulesAt fromStr fs (store.pendingFile item.id)).tail = rest := by
    rw [h.rulesAt, List.tail_cons]
  constructor
  · rintro ⟨fs', dst, hok, hperm⟩
    have hne : store.approvedDir ≠ "" := by
      intro hempty
      rw [hempty] at hperm
      -- Nothing is read then, and there are four built-in rules.
      have hlength := hperm.length_eq
      have hbuiltin : (RuleSet.loadDir fromStr (rulesListing fs' "")).rules.length = 4 := rfl
      have hshown : (item.rule :: fileRules fromStr fs "").length = 1 := rfl
      omega
    rcases h.approved hwell hne hok with ⟨hmoved, dir, happroved⟩
    have hrules := (perm_rules_approved h happroved).symm.trans hperm
    have hadds := (addsRule_iff h).mp ((List.perm_cons _).mp hrules)
    rw [← htail] at hadds
    rcases (h.not_refused_iff hne).mp hmoved with ⟨hcreated, hmoves, hfree⟩
    exact ⟨hne, hcreated, hmoves, hfree, fun hthere => (hadds.1 hthere).1, fun hthere => (hadds.1 hthere).2,
      hadds.2⟩
  · intro hadds
    have hmoved := (h.not_refused_iff hadds.nonempty).mpr
      ⟨hadds.created, hadds.moves, hadds.free⟩
    rcases approve_moved h.lookup_ne_none hmoved with ⟨_, fs', _, hok⟩
    rcases h.approved hwell hadds.nonempty hok with ⟨_, dir, happroved⟩
    refine ⟨fs', _, hok, (perm_rules_approved h happroved).trans ((List.perm_cons _).mpr ?_)⟩
    refine (addsRule_iff h).mpr ?_
    rw [← htail]
    exact ⟨fun hthere => ⟨hadds.apart hthere, hadds.replaced hthere⟩, hadds.alone⟩

end Shown

/-- A reviewer approves exactly what was shown if and only if the move works and the rules
    behind the one that was shown are those that are replaced. -/
theorem approvesShown_iff (store : ApprovalStore) (fs : FileTree) (hwell : WellFormed fs)
    (hplain : PlainNames fs) (items : List PendingItem)
    (hlist : store.listPending fromStr fs = .ok items) (item : PendingItem) (hitem : item ∈ items) :
    ApprovesShown fromStr store fs item ↔ AddsShown fromStr store fs item.id := by
  rcases exists_proposal hplain hlist hitem with ⟨path, inode, rest, h⟩
  exact h.shown_iff_adds hwell

/-- A staged rule, and nothing else. -/
def oneStaged : FileTree :=
  (exampleStore.stagePending writeTwo emptyRoot 1 (Rule.bare "a-b" .alert)).1

/-- A rule that was staged and approved is the one that is read then. -/
theorem staged_approved_as_shown :
    ∃ items, exampleStore.listPending parseTwo oneStaged = .ok items ∧
      ∃ item ∈ items, item.rule = Rule.bare "a-b" .alert ∧
        ApprovesShown parseTwo exampleStore oneStaged item := by
  have hpath : oneStaged.resolve exampleStore.pendingDir = some ["pending"] := by decide +kernel
  have hentry : oneStaged.entry (["pending"] ++ ["1-a-b.toml"]) = some (.file 0) := by
    decide +kernel
  have hshown : (exampleStore.pendingItem parseTwo oneStaged "1-a-b.toml" (.file 0)).map
      (fun item => (item.id, item.rule)) = some ("1-a-b", Rule.bare "a-b" .alert) := by
    decide +kernel
  rcases exists_listed hpath (by decide +kernel) hentry hshown with
    ⟨items, hlist, item, hitem, hid, hrule⟩
  have hwell : WellFormed oneStaged :=
    @wellFormed_stage writeTwo emptyRoot "/pending" (fun id => id ++ ".toml") wellFormed_emptyRoot
      (1, Rule.bare "a-b" .alert) (isName_pending 1 "a-b")
  have hadds : AddsShown parseTwo exampleStore oneStaged "1-a-b" := by
    have hlisting : rulesListing oneStaged exampleStore.approvedDir = none := by decide +kernel
    have hmoves : ∀ src dst, oneStaged.resolve (exampleStore.pendingFile "1-a-b") = some src →
        (oneStaged.createDirAll exampleStore.approvedDir).1.resolve
          (exampleStore.approvedFile "1-a-b") = some dst → oneStaged.sys.moves src dst = true := by
      intro src dst hsrc hdst
      have hfrom : oneStaged.resolve (exampleStore.pendingFile "1-a-b")
          = some ["pending", "1-a-b.toml"] := by decide +kernel
      have hto : (oneStaged.createDirAll exampleStore.approvedDir).1.resolve
          (exampleStore.approvedFile "1-a-b") = some ["rules", "ai-approved-1-a-b.toml"] := by
        decide +kernel
      rw [← Option.some.inj (hfrom.symm.trans hsrc), ← Option.some.inj (hto.symm.trans hdst)]
      decide +kernel
    exact ⟨by decide, by decide +kernel, hmoves, by decide +kernel, fun hthere => absurd hlisting hthere,
      fun hthere => absurd hlisting hthere, fun _ => by decide +kernel⟩
  refine ⟨items, hlist, item, hitem, hrule, ?_⟩
  exact (approvesShown_iff parseTwo exampleStore oneStaged hwell (by decide +kernel) items hlist
    item hitem).mpr (hid ▸ hadds)

/-- Two rules in one file, the second of which lets everything through. -/
def twoRulesText : String := bareText "log-all" "log" ++ bareText "allow-all" "allow"

def parseBoth (text : String) : Option RuleSet :=
  if text = twoRulesText then some ⟨[Rule.bare "log-all" .log, Rule.bare "allow-all" .allow]⟩
  else none

/-- A proposal that somebody has added a rule to. -/
def twoRules : FileTree :=
  ((emptyRoot.createDirAll exampleStore.pendingDir).1.write 0 "/pending/edited.toml" twoRulesText).1

theorem wellFormed_twoRules : WellFormed twoRules := by
  have hwrite : (emptyRoot.createDirAll exampleStore.pendingDir).1.write 0 "/pending/edited.toml"
      twoRulesText = (twoRules, true) := Prod.ext rfl (by decide +kernel)
  rcases written_of_write hwrite with ⟨path, inode, hpath, hwritten⟩
  have hplace : path = ["pending"] ++ ["edited.toml"] := by
    have hleads : (emptyRoot.createDirAll exampleStore.pendingDir).1.resolve
        "/pending/edited.toml" = some (["pending"] ++ ["edited.toml"]) := by decide +kernel
    exact Option.some.inj (hpath.symm.trans hleads)
  rw [hplace] at hwritten
  exact (wellFormed_emptyRoot.createDirAll _).written hwritten (by decide +kernel)

/-- The first rule of a file is shown, and the second one approved with it. -/
theorem second_rule_not_shown :
    WellFormed twoRules ∧ PlainNames twoRules ∧
      ∃ items, exampleStore.listPending parseBoth twoRules = .ok items ∧
        ∃ item ∈ items, item.rule = Rule.bare "log-all" .log ∧
          ¬ ApprovesShown parseBoth exampleStore twoRules item := by
  have hpath : twoRules.resolve exampleStore.pendingDir = some ["pending"] := by decide +kernel
  have hentry : twoRules.entry (["pending"] ++ ["edited.toml"]) = some (.file 0) := by
    decide +kernel
  have hshown : (exampleStore.pendingItem parseBoth twoRules "edited.toml" (.file 0)).map
      (fun item => (item.id, item.rule)) = some ("edited", Rule.bare "log-all" .log) := by
    decide +kernel
  rcases exists_listed hpath (by decide +kernel) hentry hshown with
    ⟨items, hlist, item, hitem, hid, hrule⟩
  refine ⟨wellFormed_twoRules, by decide +kernel, items, hlist, item, hitem, hrule, ?_⟩
  -- Both rules are loaded, where the one that was shown should be.
  rintro ⟨fs', dst, hok, hperm⟩
  rw [hid] at hok
  have hafter : fs' = (exampleStore.approve twoRules "edited").1 := (congrArg Prod.fst hok).symm
  have hlength := hperm.length_eq
  rw [hafter, List.length_cons] at hlength
  revert hlength
  decide +kernel

end VectorGuard
