import VectorGuard.Theory.Staging

/-!
# Files of the Store

Which files an operation of the store touches.

Staging makes the name of a file itself, out of characters that mean nothing in a
path, so what it writes is a child of its directory. Approving and rejecting are
given an id and paste it into a path as it is. An id with a slash leads wherever
it says: rejecting removes what is there, and approving moves it, or moves a
proposal to somewhere that is no name of an approved rule. A directory whose name
ends like that of a proposal is moved as well.

The conditions name what has to lie where the two paths lead. They hold of every
id without a slash, unless a directory has the name.

## Main definitions

* `Own`: The files that are the store's.
* `NamesPending`: An id names a pending file.
* `Safe`: An operation touches the store's files only, and none for another id.
* `RejectsSafely`, `ApprovesSafely`: When the two operations do.

## Theorems

* `confined_stage`: Staging touches the store's files only.
* `safe_reject_iff`, `safe_approve_iff`: When rejecting and approving do.
* `safe_iff`: All of it.
-/

namespace VectorGuard

open FileTree

variable (store : ApprovalStore)

/-- A direct child of the pending directory, or of the approved one with a name
    that staging or approving gives. -/
def Own (fs : FileTree) (path : Path) : Prop :=
  (∃ dir name, fs.place store.pendingDir = some dir ∧ path = dir ++ [name]) ∨
    ∃ dir name, fs.place store.approvedDir = some dir ∧
      path = dir ++ ["ai-approved-" ++ name ++ ".toml"]

/-- Every file that was created, written, moved or removed is the store's. -/
def Confined (fs fs' : FileTree) : Prop :=
  ∀ path, fs'.fileAt path ≠ fs.fileAt path → Own store fs' path

/-- The path of an id leads to a file directly in the pending directory. -/
def NamesPending (fs : FileTree) (id : String) : Prop :=
  ∃ dir name inode, fs.place store.pendingDir = some dir ∧
    fs.resolve (store.pendingFile id) = some (dir ++ [name]) ∧
    fs.entry (dir ++ [name]) = some (.file inode)

/-- An operation on an id touches files of the store only, and gives an error and
    changes nothing when the id names no pending file. -/
structure Safe {α : Type} (fs : FileTree) (id : String)
    (result : FileTree × Except (Option String) α) : Prop where
  confined : Confined store fs result.1
  named : ¬ NamesPending store fs id → (∃ e, result.2 = .error e) ∧ result.1 = fs

/-- What the path of an id leads to, if it is a file that can be removed, is directly in
    the pending directory. -/
def RejectsSafely (fs : FileTree) (id : String) : Prop :=
  ∀ path inode, fs.resolve (store.pendingFile id) = some path →
    fs.entry path = some (.file inode) → fs.sys.accepts path = true → NamesPending store fs id

/-- The approved directory cannot be created, or the file system refuses the move. -/
def Refused (fs : FileTree) (id : String) : Prop :=
  (fs.createDirAll store.approvedDir).2 = false ∨
    ((fs.createDirAll store.approvedDir).1.rename (store.pendingFile id)
      (store.approvedFile id)).2 = false

/-- Nothing is at the path of an id; or the move is refused, for a pending file or
    without a directory to create; or a pending file is moved to a name that is
    the store's. -/
def ApprovesSafely (fs : FileTree) (id : String) : Prop :=
  fs.lookup (store.pendingFile id) = none ∨
    Refused store fs id ∧
      (NamesPending store fs id ∨ (fs.createDirAll store.approvedDir).1 = fs) ∨
    NamesPending store fs id ∧
      ∀ path, (fs.createDirAll store.approvedDir).1.resolve (store.approvedFile id) = some path →
        Own store (fs.createDirAll store.approvedDir).1 path

/-! ### Staging -/

section Staging

variable {store} {toText : RuleSet → Option String} {fs : FileTree} {dir : String}

theorem confined_refl : Confined store fs fs :=
  fun _ h => absurd rfl h

theorem confined_createDirAll : Confined store fs (fs.createDirAll dir).1 :=
  fun path h => absurd ((moreDirs_createDirAll fs dir).fileAt path) h

theorem wellFormed_stage {name : String → String} (hwell : WellFormed fs) (c : Nat × Rule)
    (hname : IsName (name (stagedId c))) :
    WellFormed (stageTo toText dir name fs c.1 c.2).1 := by
  rcases stage_cases toText fs hname with ⟨e, hstage⟩ | ⟨fs', path, inode, body, hstage, hstaged⟩
  · rw [hstage]
    exact hwell.createDirAll dir
  · rw [hstage]
    exact hstaged.wellFormed hwell

/-- Staging touches the child of the directory that has the name, and no other file. -/
theorem confined_stage {name : String → String} (hwell : WellFormed fs) (c : Nat × Rule)
    (hname : IsName (name (stagedId c)))
    (hown : ∀ fs' path, fs'.place dir = some path →
      Own store fs' (path ++ [name (stagedId c)])) :
    Confined store fs (stageTo toText dir name fs c.1 c.2).1 := by
  rcases stage_cases toText fs hname with ⟨e, hstage⟩ | ⟨fs', path, inode, body, hstage, hstaged⟩
  · rw [hstage]
    exact confined_createDirAll
  · rw [hstage]
    intro q hq
    by_cases heq : q = path ++ [name (stagedId c)]
    · rw [heq]
      exact hown _ path hstaged.place_after
    · have hsame := hstaged.written.fileAt_of_ne (hwell.createDirAll dir) heq
      exact absurd (hsame.trans ((moreDirs_createDirAll fs dir).fileAt q)) hq

end Staging

/-! ### Rejecting -/

section Reject

variable {store} {fs : FileTree} {id : String} {path : Path} {inode : Nat}

/-- Where nothing is at the path that can be removed, an error is all. -/
theorem reject_error (h : ∀ path, fs.resolve (store.pendingFile id) = some path →
    (fs.remove path).2 = false) : ∃ e, store.reject fs id = (fs, .error e) := by
  unfold ApprovalStore.reject
  simp only
  by_cases hlookup : fs.lookup (store.pendingFile id) = none
  · rw [if_pos hlookup]
    exact ⟨_, rfl⟩
  · rw [if_neg hlookup]
    cases hpath : fs.resolve (store.pendingFile id) with
    | none => exact ⟨none, rfl⟩
    | some path =>
        rw [Option.map_some, remove_refused (h path hpath)]
        exact ⟨none, rfl⟩

/-- A file at the path is removed if that can be done. -/
theorem reject_file (hpath : fs.resolve (store.pendingFile id) = some path)
    (hfile : fs.entry path = some (.file inode)) (haccepts : fs.sys.accepts path = true) :
    store.reject fs id = ((fs.remove path).1, .ok ()) := by
  have hlookup : fs.lookup (store.pendingFile id) ≠ none :=
    FileTree.lookup_ne_none_of_entry hpath hfile
  have hremove : fs.remove path = ((fs.remove path).1, true) := by
    rw [remove_eq hfile haccepts]
  unfold ApprovalStore.reject
  simp only
  rw [if_neg hlookup, hpath, Option.map_some, hremove]

theorem kept_dir_remove (hfile : fs.entry path = some (.file inode))
    (haccepts : fs.sys.accepts path = true) (q : Path) :
    (fs.remove path).1.entry q = some .dir ↔ fs.entry q = some .dir := by
  rcases entry_remove hfile haccepts with ⟨hgone, hothers⟩
  by_cases hq : q = path
  · rw [hq, hgone, hfile]
    simp
  · rw [hothers q hq]

/-- Removing a file touches that file. -/
theorem confined_remove (hfile : fs.entry path = some (.file inode))
    (haccepts : fs.sys.accepts path = true) (hown : Own store fs path) :
    Confined store fs (fs.remove path).1 := by
  intro q hq
  have hsame : q = path := by
    by_contra hne
    have hentry := (entry_remove hfile haccepts).2 q hne
    refine hq (fileAt_congr (fun i => by rw [hentry]) (fun i _ => ?_))
    rw [fs.data_remove]
  have hplace := place_congr (kept_dir_remove hfile haccepts) (by rw [remove_eq hfile haccepts]; rfl)
  rw [hsame]
  unfold Own
  rw [hplace, hplace]
  exact hown

theorem NamesPending.own {store : ApprovalStore} {fs : FileTree} {id : String}
    (h : NamesPending store fs id) (hpath : fs.resolve (store.pendingFile id) = some path) :
    Own store fs path := by
  rcases h with ⟨dir, name, _, hdir, hchild, _⟩
  exact .inl ⟨dir, name, hdir, Option.some.inj (hpath.symm.trans hchild)⟩

/-- Rejecting is safe exactly when no file elsewhere that can be removed is at the path. -/
theorem safe_reject_iff : Safe store fs id (store.reject fs id) ↔ RejectsSafely store fs id := by
  constructor
  · intro hsafe path inode hpath hfile haccepts
    by_contra hnamed
    -- A file is at the path, so it was removed without an error.
    rcases (hsafe.named hnamed).1 with ⟨e, he⟩
    rw [reject_file hpath hfile haccepts] at he
    exact absurd he (by simp)
  · intro hsafe
    by_cases hfile : ∃ path, fs.resolve (store.pendingFile id) = some path ∧
        (fs.remove path).2 = true
    · rcases hfile with ⟨path, hpath, hremoved⟩
      rcases (remove_ok_iff path).mp hremoved with ⟨⟨inode, hfile⟩, haccepts⟩
      have hnamed := hsafe path inode hpath hfile haccepts
      rw [reject_file hpath hfile haccepts]
      exact ⟨confined_remove hfile haccepts (hnamed.own hpath), fun h => absurd hnamed h⟩
    · have hnone : ∀ path, fs.resolve (store.pendingFile id) = some path →
          (fs.remove path).2 = false :=
        fun path hpath => Bool.eq_false_iff.mpr (fun hremoved => hfile ⟨path, hpath, hremoved⟩)
      rcases reject_error hnone with ⟨e, he⟩
      rw [he]
      exact ⟨confined_refl, fun _ => ⟨⟨e, rfl⟩, rfl⟩⟩

end Reject

/-! ### Approving -/

section Approve

variable {store} {fs : FileTree} {id : String}

theorem approve_missing (h : fs.lookup (store.pendingFile id) = none) :
    ∃ e, store.approve fs id = (fs, .error e) := by
  unfold ApprovalStore.approve
  simp only
  rw [if_pos h]
  exact ⟨_, rfl⟩

/-- A move that is refused leaves the directory that was created for it. -/
theorem approve_refused (h : fs.lookup (store.pendingFile id) ≠ none)
    (hrefused : Refused store fs id) :
    ∃ e, store.approve fs id = ((fs.createDirAll store.approvedDir).1, .error e) := by
  unfold ApprovalStore.approve
  simp only
  rw [if_neg h]
  unfold Refused at hrefused
  cases hdirs : fs.createDirAll store.approvedDir with
  | mk fs₁ ok =>
      cases ok with
      | false => exact ⟨none, rfl⟩
      | true =>
          rw [hdirs] at hrefused
          have hrename := hrefused.resolve_left (by simp)
          cases hmove : fs₁.rename (store.pendingFile id) (store.approvedFile id) with
          | mk fs₂ ok =>
              rw [hmove] at hrename
              simp only at hrename
              subst hrename
              simp only
              rw [hmove, rename_refused hmove]
              exact ⟨_, rfl⟩

theorem approve_moved (h : fs.lookup (store.pendingFile id) ≠ none)
    (hmoved : ¬ Refused store fs id) :
    (fs.createDirAll store.approvedDir).2 = true ∧ ∃ fs₂,
      (fs.createDirAll store.approvedDir).1.rename (store.pendingFile id) (store.approvedFile id)
        = (fs₂, true) ∧
      store.approve fs id = (fs₂, .ok (store.approvedFile id)) := by
  unfold Refused at hmoved
  unfold ApprovalStore.approve
  simp only
  rw [if_neg h]
  cases hdirs : fs.createDirAll store.approvedDir with
  | mk fs₁ ok =>
      rw [hdirs] at hmoved
      cases ok with
      | false => exact absurd (.inl rfl) hmoved
      | true =>
          cases hmove : fs₁.rename (store.pendingFile id) (store.approvedFile id) with
          | mk fs₂ ok =>
              rw [hmove] at hmoved
              cases ok with
              | false => exact absurd (.inr rfl) hmoved
              | true => exact ⟨rfl, fs₂, rfl, by simp only; rw [hmove]⟩

theorem Own.moreDirs {fs' : FileTree} {path : Path} (h : MoreDirs fs fs') (hown : Own store fs path) :
    Own store fs' path := by
  rcases hown with ⟨dir, name, hdir, hpath⟩ | ⟨dir, name, hdir, hpath⟩
  · exact .inl ⟨dir, name, h.place hdir, hpath⟩
  · exact .inr ⟨dir, name, h.place hdir, hpath⟩

/-- The store's files are the same when the directories are. -/
theorem own_congr {fs' : FileTree} (hdir : ∀ q, fs'.entry q = some .dir ↔ fs.entry q = some .dir)
    (hsys : fs'.sys = fs.sys) (path : Path) : Own store fs' path ↔ Own store fs path := by
  unfold Own
  rw [place_congr hdir hsys, place_congr hdir hsys]

/-- What approving a pending file moves, and where. -/
theorem exists_moved (hwell : WellFormed fs) (hnamed : NamesPending store fs id)
    {fs₂ : FileTree} (hmove : (fs.createDirAll store.approvedDir).1.rename (store.pendingFile id)
      (store.approvedFile id) = (fs₂, true)) :
    ∃ src dst inode, fs.entry src = some (.file inode) ∧ Own store fs src ∧
      (fs.createDirAll store.approvedDir).1.resolve (store.approvedFile id) = some dst ∧
      Moved (fs.createDirAll store.approvedDir).1 fs₂ src dst inode := by
  have hmore := moreDirs_createDirAll fs store.approvedDir
  rcases hnamed with ⟨dir, name, inode, hdir, hsrc, hfile⟩
  rcases moved_of_rename (hwell.createDirAll store.approvedDir) (hmore.resolve hsrc)
    (hmore.kept _ _ hfile) hmove with ⟨dst, hdst, hmoved⟩
  exact ⟨dir ++ [name], dst, inode, hfile, .inl ⟨dir, name, hdir, rfl⟩, hdst, hmoved⟩

theorem fileAt_moved {fs₂ : FileTree} {p p' : String} {src dst : Path} {inode : Nat}
    (hrename : (fs.createDirAll store.approvedDir).1.rename p p' = (fs₂, true))
    (hmoved : Moved (fs.createDirAll store.approvedDir).1 fs₂ src dst inode) {q : Path}
    (hsrc : q ≠ src) (hdst : q ≠ dst) : fs₂.fileAt q = fs.fileAt q := by
  have hdata := (fs.createDirAll store.approvedDir).1.data_rename p p'
  rw [hrename] at hdata
  exact (hmoved.fileAt_of_ne hdata hsrc hdst).trans
    ((moreDirs_createDirAll fs store.approvedDir).fileAt q)

/-- A move of a pending file keeps to the store's own files exactly when it is to
    one of them. -/
theorem confined_moved_iff (hwell : WellFormed fs) (hnamed : NamesPending store fs id)
    {fs₂ : FileTree} (hmove : (fs.createDirAll store.approvedDir).1.rename (store.pendingFile id)
      (store.approvedFile id) = (fs₂, true)) :
    Confined store fs fs₂ ↔
      ∀ path, (fs.createDirAll store.approvedDir).1.resolve (store.approvedFile id) = some path →
        Own store (fs.createDirAll store.approvedDir).1 path := by
  have hmore := moreDirs_createDirAll fs store.approvedDir
  rcases exists_moved hwell hnamed hmove with ⟨src, dst, inode, hfile, hown, hdst, hmoved⟩
  have hkept := hmoved.kept_dir (hmore.kept src _ hfile)
  constructor
  · intro hconfined path hpath
    rw [Option.some.inj (hpath.symm.trans hdst)]
    by_cases hstays : dst = src
    · rw [hstays]
      exact hown.moreDirs hmore
    · -- The target now has the inode of the source, which had one name only.
      have htouched : fs₂.fileAt dst ≠ fs.fileAt dst := by
        intro heq
        rw [fileAt_of_entry hmoved.entry_dst] at heq
        exact hstays (hwell.unique dst src inode (entry_of_fileAt heq.symm).1 hfile)
      exact (own_congr hkept hmoved.sys dst).mp (hconfined dst htouched)
  · intro htarget q hq
    rw [own_congr hkept hmoved.sys]
    by_cases hsrc : q = src
    · rw [hsrc]
      exact hown.moreDirs hmore
    · by_cases hq' : q = dst
      · rw [hq']
        exact htarget dst hdst
      · exact absurd (fileAt_moved hmove hmoved hsrc hq') hq

/-- A refused move is safe when the file was a pending one or no directory came of it. -/
theorem safe_of_refused (hrefused : Refused store fs id)
    (h : NamesPending store fs id ∨ (fs.createDirAll store.approvedDir).1 = fs) :
    Safe store fs id (store.approve fs id) := by
  by_cases hlookup : fs.lookup (store.pendingFile id) = none
  · rcases approve_missing hlookup with ⟨e, he⟩
    rw [he]
    exact ⟨confined_refl, fun _ => ⟨⟨e, rfl⟩, rfl⟩⟩
  · rcases approve_refused hlookup hrefused with ⟨e, he⟩
    rw [he]
    exact ⟨confined_createDirAll, fun hnamed => ⟨⟨e, rfl⟩, h.resolve_left hnamed⟩⟩

theorem NamesPending.lookup_ne_none (h : NamesPending store fs id) :
    fs.lookup (store.pendingFile id) ≠ none := by
  rcases h with ⟨dir, name, inode, _, hsrc, hfile⟩
  exact FileTree.lookup_ne_none_of_entry hsrc hfile

/-- Approving is safe exactly under the condition. -/
theorem safe_approve_iff (hwell : WellFormed fs) :
    Safe store fs id (store.approve fs id) ↔ ApprovesSafely store fs id := by
  constructor
  · intro hsafe
    -- The three outcomes of the call, and what safety says in each.
    by_cases hlookup : fs.lookup (store.pendingFile id) = none
    · exact .inl hlookup
    by_cases hrefused : Refused store fs id
    · rcases approve_refused hlookup hrefused with ⟨e, he⟩
      refine .inr (.inl ⟨hrefused, ?_⟩)
      by_cases hnamed : NamesPending store fs id
      · exact .inl hnamed
      · have hsame := (hsafe.named hnamed).2
        rw [he] at hsame
        exact .inr hsame
    · rcases approve_moved hlookup hrefused with ⟨_, fs₂, hmove, hresult⟩
      -- The move succeeded, which is safe for a pending proposal only.
      have hnamed : NamesPending store fs id := by
        by_contra hnot
        rcases (hsafe.named hnot).1 with ⟨e, he⟩
        rw [hresult] at he
        exact absurd he (by simp)
      have hconfined := hsafe.confined
      rw [hresult] at hconfined
      exact .inr (.inr ⟨hnamed, (confined_moved_iff hwell hnamed hmove).mp hconfined⟩)
  · rintro (hlookup | ⟨hrefused, h⟩ | ⟨hnamed, htarget⟩)
    · rcases approve_missing hlookup with ⟨e, he⟩
      rw [he]
      exact ⟨confined_refl, fun _ => ⟨⟨e, rfl⟩, rfl⟩⟩
    · exact safe_of_refused hrefused h
    · by_cases hrefused : Refused store fs id
      · exact safe_of_refused hrefused (.inl hnamed)
      · rcases approve_moved hnamed.lookup_ne_none hrefused with ⟨_, fs₂, hmove, hresult⟩
        rw [hresult]
        exact ⟨(confined_moved_iff hwell hnamed hmove).mpr htarget, fun h => absurd hnamed h⟩

end Approve

/-- An id without a slash is safe to reject, and to approve unless a directory has
    the name of its file. -/
theorem safely_of_noSlash (fs : FileTree) {id : String} (hslash : '/' ∉ id.toList) :
    RejectsSafely store fs id ∧
      (fs.lookup (store.pendingFile id) ≠ some .dir → ApprovesSafely store fs id) := by
  have hpending : IsName (id ++ ".toml") := isName_toml hslash
  have happroved : IsName ("ai-approved-" ++ id ++ ".toml") := isName_approved_of_noSlash hslash
  have hnamed : ∀ path inode, fs.resolve (store.pendingFile id) = some path →
      fs.entry path = some (.file inode) → NamesPending store fs id := by
    intro path inode hpath hfile
    rcases eq_child_of_resolve hpending hpath with ⟨dir, hdir, _, rfl⟩
    exact ⟨dir, _, inode, hdir, hpath, hfile⟩
  refine ⟨fun path inode hpath hfile _ => hnamed path inode hpath hfile, fun hnotDir => ?_⟩
  cases hlookup : fs.lookup (store.pendingFile id) with
  | none => exact .inl hlookup
  | some e =>
      cases e with
      | dir => exact absurd hlookup hnotDir
      | file inode =>
          rcases Option.bind_eq_some_iff.mp hlookup with ⟨path, hpath, hfile⟩
          refine .inr (.inr ⟨hnamed path inode hpath hfile, fun q hq => ?_⟩)
          rcases eq_child_of_resolve happroved hq with ⟨dir, hdir, _, rfl⟩
          exact .inr ⟨dir, id, hdir, rfl⟩

/-- Staging is always confined to the store's files; rejecting and approving an id
    are exactly when its two paths lead to such files. -/
theorem safe_iff (toText : RuleSet → Option String) (fs : FileTree) (hwell : WellFormed fs) :
    (∀ now rule, Confined store fs (store.stagePending toText fs now rule).1) ∧
      (∀ now rule, Confined store fs (store.stageAuto toText fs now rule).1) ∧
      ∀ id, (Safe store fs id (store.reject fs id) ↔ RejectsSafely store fs id) ∧
        (Safe store fs id (store.approve fs id) ↔ ApprovesSafely store fs id) := by
  refine ⟨fun now rule => ?_, fun now rule => ?_, fun id => ⟨safe_reject_iff, safe_approve_iff hwell⟩⟩
  · exact @confined_stage store toText fs store.pendingDir (fun id => id ++ ".toml") hwell (now, rule)
      (isName_pending now rule.name) (fun _ path hpath => .inl ⟨path, _, hpath, rfl⟩)
  · exact @confined_stage store toText fs store.approvedDir (fun id => "ai-approved-" ++ id ++ ".toml")
      hwell (now, rule) (isName_approved now rule.name) (fun _ path hpath => .inr ⟨path, _, hpath, rfl⟩)

theorem wellFormed_emptyRoot : WellFormed emptyRoot := by
  have hnone : ∀ path name, emptyRoot.entry (path ++ [name]) = none := by
    intro path name
    rw [entry_eq_lookup _ (by simp)]
    rfl
  refine ⟨fun path name h => absurd (hnone path name) h, fun path _ inode h _ => ?_⟩
  rcases List.eq_nil_or_concat path with rfl | ⟨front, name, rfl⟩
  · exact absurd h (by simp [entry])
  · rw [List.concat_eq_append, hnone] at h
    exact absurd h (by simp)

theorem wellFormed_stagedAtZero : WellFormed stagedAtZero :=
  @wellFormed_stage (fun _ => some "") emptyRoot "/pending" (fun id => id ++ ".toml")
    wellFormed_emptyRoot (0, Rule.bare "r" .alert) (isName_pending 0 "r")

/-- Approving the one proposal there is moves its file and touches no other. -/
theorem approve_staged_safe :
    Safe exampleStore stagedAtZero "0-r" (exampleStore.approve stagedAtZero "0-r") := by
  have h := safe_iff exampleStore (fun _ => some "") stagedAtZero wellFormed_stagedAtZero
  exact (h.2.2 "0-r").2.mpr ((safely_of_noSlash exampleStore stagedAtZero (by decide)).2
    (by decide +kernel))

/-- A second store, with a pending directory next to the first. -/
def inboxStore : ApprovalStore := ⟨"/inbox", "/rules"⟩

/-- Both stores have a proposal. -/
def twoInboxes : FileTree :=
  (inboxStore.stagePending (fun _ => some "") stagedAtZero 1 (Rule.bare "s" .alert)).1

/-- An id with dots removes the proposal of the other store. -/
theorem reject_dotdot_not_confined :
    WellFormed twoInboxes ∧
      (inboxStore.reject twoInboxes "../pending/0-r").2 = .ok () ∧
      ¬ Confined inboxStore twoInboxes (inboxStore.reject twoInboxes "../pending/0-r").1 ∧
      ¬ Safe inboxStore twoInboxes "../pending/0-r"
        (inboxStore.reject twoInboxes "../pending/0-r") := by
  have hwell : WellFormed twoInboxes :=
    @wellFormed_stage (fun _ => some "") stagedAtZero "/inbox" (fun id => id ++ ".toml")
      wellFormed_stagedAtZero (1, Rule.bare "s" .alert) (isName_pending 1 "s")
  have hconfined : ¬ Confined inboxStore twoInboxes
      (inboxStore.reject twoInboxes "../pending/0-r").1 := by
    intro h
    rcases h ["pending", "0-r.toml"] (by decide +kernel) with ⟨dir, name, hdir, hpath⟩ |
      ⟨dir, name, hdir, hpath⟩
    · have hinbox : (inboxStore.reject twoInboxes "../pending/0-r").1.place "/inbox"
          = some ["inbox"] := by decide +kernel
      rw [← Option.some.inj (hinbox.symm.trans hdir)] at hpath
      exact absurd (List.cons.inj hpath).1 (by decide)
    · have hrules : (inboxStore.reject twoInboxes "../pending/0-r").1.place "/rules"
          = some ["rules"] := by decide +kernel
      rw [← Option.some.inj (hrules.symm.trans hdir)] at hpath
      exact absurd (List.cons.inj hpath).1 (by decide)
  exact ⟨hwell, by decide +kernel, hconfined, fun hsafe => hconfined hsafe.confined⟩

end VectorGuard
