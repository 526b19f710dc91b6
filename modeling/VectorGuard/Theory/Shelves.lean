import VectorGuard.Lib.FileContents
import VectorGuard.Theory.StoreFiles

/-!
# Two Shelves

The approval store as what it is for: a shelf of proposals and a shelf of rules.

A proposal is put on the first shelf under its id, a reviewer moves it to the second or
throws it away, and what is too old is taken off the second. The store does this with
files, paths and directory listings. As long as its two directories are there, are not
the same, are on one file system that refuses nothing there but names that are too long,
and no directory in them has the name of one of its files, every operation does to the
files exactly what it does to the shelves, has the same outcome, and leaves every other
file of the system alone. An id with a slash in it is not a name and is left out.

## Main definitions

* `Shelves`: What is on the two shelves.
* `Shelves.apply`, `Shelves.outcome`: What an operation does, and whether it succeeds.
* `Settled`: The directories of a store are as the store needs them.

## Theorems

* `Settled.reapExpired`: A sweep of the directory is one of the shelf.
* `Settled.apply`: One operation on the files is one on the shelves.
* `Settled.runStore_refines`: A run on the files is one on the shelves.
-/

namespace VectorGuard

open FileTree

/-- What the two directories hold: proposals by id, rule files by name. -/
structure Shelves where
  pending : String → Option FileData
  rules : String → Option FileData

/-- The name of an approved rule. -/
def ruleFileName (id : String) : String := "ai-approved-" ++ id ++ ".toml"

/-- The names the reaper looks at. -/
def reapable (name : String) : Bool := startsWith name "ai-approved-" && endsWith name ".toml"

namespace Shelves

variable (toText : RuleSet → Option String)

/-- What staging writes under a name, if that is not too long. -/
def staged (name : String) (now : Nat) (rule : Rule) : Option FileData :=
  if fits name then (toText ⟨[rule]⟩).map (fun body => ⟨ruleHeader ++ body, now⟩) else none

/-- What a sweep leaves of a file. -/
def swept (now ttl : Nat) (name : String) (file : Option FileData) : Option FileData :=
  if reapable name then file.filter (fun file => !ApprovalStore.expired now ttl file) else file

/-- What an operation at a time does. -/
def apply (now : Nat) (sh : Shelves) : StoreOp → Shelves
  | .stagePending rule =>
    match staged toText (makeId now rule.name ++ ".toml") now rule with
    | none => sh
    | some file => { sh with
        pending := Function.update sh.pending (makeId now rule.name) (some file) }
  | .stageAuto rule =>
    match staged toText (ruleFileName (makeId now rule.name)) now rule with
    | none => sh
    | some file => { sh with
        rules := Function.update sh.rules (ruleFileName (makeId now rule.name)) (some file) }
  | .approve id =>
    match sh.pending id with
    | none => sh
    | some file =>
      if fits (ruleFileName id) then
        { pending := Function.update sh.pending id none
          rules := Function.update sh.rules (ruleFileName id) (some file) }
      else sh
  | .reject id => { sh with pending := Function.update sh.pending id none }
  | .reapExpired ttl => { sh with rules := fun name => swept now ttl name (sh.rules name) }

/-- An operation at a time succeeds. -/
def outcome (now : Nat) (sh : Shelves) : StoreOp → Bool
  | .stagePending rule => (staged toText (makeId now rule.name ++ ".toml") now rule).isSome
  | .stageAuto rule => (staged toText (ruleFileName (makeId now rule.name)) now rule).isSome
  | .approve id => (sh.pending id).isSome && fits (ruleFileName id)
  | .reject id => (sh.pending id).isSome
  | .reapExpired _ => true

/-- The shelves after operations at their times. -/
def run (sh : Shelves) (ops : List (Nat × StoreOp)) : Shelves :=
  ops.foldl (fun sh op => sh.apply toText op.1 op.2) sh

end Shelves

/-- The shelves in what files hold. -/
def shelvesOf (pdir adir : Path) (held : Path → Option FileData) : Shelves where
  pending id := held (pdir ++ [id ++ ".toml"])
  rules name := held (adir ++ [name])

/-- An operation returns no error. -/
def StoreOp.outcome (toText : RuleSet → Option String) (store : ApprovalStore) (fs : FileTree)
    (now : Nat) : StoreOp → Bool
  | .stagePending rule => (store.stagePending toText fs now rule).2.isOk
  | .stageAuto rule => (store.stageAuto toText fs now rule).2.isOk
  | .approve id => (store.approve fs id).2.isOk
  | .reject id => (store.reject fs id).2.isOk
  | .reapExpired ttl => (store.reapExpired fs now ttl).2.isOk

/-- The ids in an operation have no slash. -/
def StoreOp.Plain : StoreOp → Prop
  | .approve id | .reject id => '/' ∉ id.toList
  | _ => True

/-- The directories of a store are there and apart, on one file system and with nothing
    refused but names that are too long, and no directory in them has the name of one of
    its files. -/
structure Settled (store : ApprovalStore) (fs : FileTree) (pdir adir : Path) : Prop where
  wellFormed : WellFormed fs
  pending : fs.resolve store.pendingDir = some pdir
  approved : fs.resolve store.approvedDir = some adir
  pendingDir : OpenDir fs pdir
  approvedDir : OpenDir fs adir
  apart : pdir ≠ adir
  together : fs.sys.mount pdir = fs.sys.mount adir
  pendingFree : ∀ id, fs.entry (pdir ++ [id ++ ".toml"]) ≠ some .dir
  approvedFree : ∀ id, fs.entry (adir ++ [ruleFileName id]) ≠ some .dir

section Steps

variable {toText : RuleSet → Option String} {store : ApprovalStore} {fs fs' : FileTree}
  {pdir adir : Path} {now : Nat}

theorem Settled.refilled {held : Path → Option FileData} (h : Settled store fs pdir adir)
    (hfill : Refilled fs fs' held) : Settled store fs' pdir adir where
  wellFormed := hfill.wellFormed
  pending := (hfill.resolve _).trans h.pending
  approved := (hfill.resolve _).trans h.approved
  pendingDir := h.pendingDir.refilled hfill
  approvedDir := h.approvedDir.refilled hfill
  apart := h.apart
  together := by rw [hfill.sys, h.together]
  pendingFree := fun id hdir => h.pendingFree id ((hfill.dirs _).mp hdir)
  approvedFree := fun id hdir => h.approvedFree id ((hfill.dirs _).mp hdir)

/-! ### Names -/

theorem child_inj {dir : Path} {name name' : String} (h : dir ++ [name] = dir ++ [name']) :
    name = name' :=
  List.singleton_inj.mp (List.append_cancel_left h)

theorem child_ne {dir dir' : Path} (h : dir ≠ dir') (name name' : String) :
    dir ++ [name] ≠ dir' ++ [name'] :=
  fun heq => h (List.append_inj' heq rfl).1

theorem reapable_ruleFileName (id : String) : reapable (ruleFileName id) = true := by
  unfold reapable ruleFileName startsWith endsWith
  rw [Bool.and_eq_true, List.isPrefixOf_iff_prefix, List.isSuffixOf_iff_suffix, bytes_append,
    bytes_append]
  exact ⟨⟨bytes id ++ bytes ".toml", (List.append_assoc ..).symm⟩, List.suffix_append _ _⟩

/-- The first shelf, after one of its files has changed. -/
theorem shelvesOf_pending (hapart : pdir ≠ adir) (held : Path → Option FileData) (id : String)
    (file : Option FileData) :
    shelvesOf pdir adir (Function.update held (pdir ++ [id ++ ".toml"]) file)
      = { shelvesOf pdir adir held with
          pending := Function.update (shelvesOf pdir adir held).pending id file } := by
  unfold shelvesOf
  congr 1
  · funext id'
    by_cases hid : id' = id
    · rw [hid, Function.update_self, Function.update_self]
    · rw [Function.update_of_ne hid, Function.update_of_ne]
      exact fun heq => hid (append_cancel_right (child_inj heq))
  · funext name
    exact Function.update_of_ne (child_ne hapart.symm _ _) _ _

/-- The second shelf, after one of its files has changed. -/
theorem shelvesOf_rules (hapart : pdir ≠ adir) (held : Path → Option FileData) (name : String)
    (file : Option FileData) :
    shelvesOf pdir adir (Function.update held (adir ++ [name]) file)
      = { shelvesOf pdir adir held with
          rules := Function.update (shelvesOf pdir adir held).rules name file } := by
  unfold shelvesOf
  congr 1
  · funext id
    exact Function.update_of_ne (child_ne hapart _ _) _ _
  · funext name'
    by_cases hname : name' = name
    · rw [hname, Function.update_self, Function.update_self]
    · rw [Function.update_of_ne hname, Function.update_of_ne]
      exact fun heq => hname (child_inj heq)

/-! ### Staging -/

variable (toText now pdir adir) in
/-- Staging into a directory that is there puts the file on the shelf of the directory, if
    the rule has a text, and nothing anywhere else. -/
theorem stage_shelved (name : String → String) (rule : Rule) {sh : Shelves}
    {put : FileData → Shelves} (hwell : WellFormed fs) {dir : String} {path : Path}
    (hpath : fs.resolve dir = some path) (hdir : OpenDir fs path)
    (hname : IsName (name (makeId now rule.name)))
    (hfree : fs.entry (path ++ [name (makeId now rule.name)]) ≠ some .dir)
    (hshelves : shelvesOf pdir adir fs.contents = sh)
    (hput : ∀ file, shelvesOf pdir adir (Function.update fs.contents
      (path ++ [name (makeId now rule.name)]) (some file)) = put file) :
    (stageTo toText dir name fs now rule).2.isOk
        = (Shelves.staged toText (name (makeId now rule.name)) now rule).isSome ∧
      ∃ held, Refilled fs (stageTo toText dir name fs now rule).1 held ∧
        shelvesOf pdir adir held
          = (Shelves.staged toText (name (makeId now rule.name)) now rule).elim sh put ∧
        ∀ q, q ≠ path ++ [name (makeId now rule.name)] → held q = fs.contents q := by
  have hchild := resolve_joinPath_of_dir hname (fs.place_of_resolve hpath) hdir.isDir
  unfold stageTo ApprovalStore.stage writeRule Shelves.staged
  rw [createDirAll_of_resolve hpath hdir.isDir]
  cases toText ⟨[rule]⟩ with
  | none =>
      rw [Option.map_none, ite_self]
      exact ⟨rfl, _, .refl hwell, hshelves, fun _ _ => rfl⟩
  | some body =>
      have hok : (fs.write now (joinPath dir (name (makeId now rule.name)))
          (ruleHeader ++ body)).2 = true ↔ _ := write_ok_iff now _ _
      rw [hchild] at hok
      simp only [Option.some.injEq, exists_eq_left', hdir.takes, ne_eq, hfree, not_false_eq_true,
        and_true] at hok
      cases hwrite : fs.write now (joinPath dir (name (makeId now rule.name)))
          (ruleHeader ++ body) with
      | mk fs' ok =>
          rw [hwrite] at hok
          simp only at hok ⊢
          rw [hwrite]
          cases ok with
          | false =>
              -- The name is too long, and nothing is written.
              rw [if_neg (fun hfits => Bool.false_ne_true (hok.mpr hfits)), write_refused hwrite]
              exact ⟨rfl, _, .refl hwell, hshelves, fun _ _ => rfl⟩
          | true =>
              rcases written_of_write hwrite with ⟨q, inode, hq, hwritten⟩
              rw [Option.some.inj (hq.symm.trans hchild)] at hwritten
              rw [if_pos (hok.mp rfl)]
              exact ⟨rfl, _, refilled_of_written hwell hwritten hdir.isDir, hput _,
                fun q hq => Function.update_of_ne hq _ _⟩

theorem Settled.lookup_pendingFile (h : Settled store fs pdir adir) {id : String}
    (hid : '/' ∉ id.toList) :
    fs.resolve (store.pendingFile id) = some (pdir ++ [id ++ ".toml"]) :=
  resolve_joinPath_of_dir (isName_toml hid) (fs.place_of_resolve h.pending) h.pendingDir.isDir

/-- A proposal is on the shelf exactly when a file has its name. -/
theorem Settled.pending_cases (h : Settled store fs pdir adir) (id : String) :
    ((shelvesOf pdir adir fs.contents).pending id = none ∧
        fs.entry (pdir ++ [id ++ ".toml"]) = none) ∨
      ∃ inode, (shelvesOf pdir adir fs.contents).pending id = some (fs.data inode) ∧
        fs.entry (pdir ++ [id ++ ".toml"]) = some (.file inode) := by
  cases hentry : fs.entry (pdir ++ [id ++ ".toml"]) with
  | none =>
      exact .inl ⟨contents_eq_none (fun inode => by rw [hentry]; simp), rfl⟩
  | some e =>
      cases e with
      | dir => exact absurd hentry (h.pendingFree id)
      | file inode => exact .inr ⟨inode, contents_of_entry hentry, rfl⟩

/-! ### Reviewing -/

theorem Settled.reject (h : Settled store fs pdir adir) {id : String} (hid : '/' ∉ id.toList) :
    (store.reject fs id).2.isOk = ((shelvesOf pdir adir fs.contents).pending id).isSome ∧
      Refilled fs (store.reject fs id).1
        (Function.update fs.contents (pdir ++ [id ++ ".toml"]) none) := by
  have hpath := h.lookup_pendingFile hid
  rcases h.pending_cases id with ⟨hnone, hentry⟩ | ⟨inode, hsome, hentry⟩
  · have herror : ∀ path, fs.resolve (store.pendingFile id) = some path →
        (fs.remove path).2 = false := by
      intro path hother
      rw [← Option.some.inj (hpath.symm.trans hother), Bool.eq_false_iff, ne_eq, remove_ok_iff,
        hentry]
      simp
    rcases reject_error herror with ⟨e, he⟩
    rw [he, hnone]
    refine ⟨rfl, ?_⟩
    -- There was nothing to remove.
    have hsame : Function.update fs.contents (pdir ++ [id ++ ".toml"]) none = fs.contents := by
      rw [Function.update_eq_self_iff]
      exact hnone.symm
    rw [hsame]
    exact .refl h.wellFormed
  · have haccepts := h.pendingDir.accepts_of_entry hentry
    rw [reject_file hpath hentry haccepts, hsome]
    exact ⟨rfl, refilled_remove h.wellFormed hentry haccepts⟩

theorem Settled.approve (h : Settled store fs pdir adir) {id : String} (hid : '/' ∉ id.toList) :
    (((shelvesOf pdir adir fs.contents).pending id = none ∨ fits (ruleFileName id) = false) ∧
        ∃ e, store.approve fs id = (fs, .error e)) ∨
      ∃ file fs' dst, (shelvesOf pdir adir fs.contents).pending id = some file ∧
        fits (ruleFileName id) = true ∧ store.approve fs id = (fs', .ok dst) ∧
        Refilled fs fs' (Function.update (Function.update fs.contents (pdir ++ [id ++ ".toml"]) none)
          (adir ++ [ruleFileName id]) (some file)) := by
  have hpath := h.lookup_pendingFile hid
  have hcreated := createDirAll_of_resolve h.approved h.approvedDir.isDir
  rcases h.pending_cases id with ⟨hnone, hentry⟩ | ⟨inode, hsome, hentry⟩
  · have hlookup : fs.lookup (store.pendingFile id) = none := by
      rw [lookup_of_resolve hpath, hentry]
    exact .inl ⟨.inl hnone, approve_missing hlookup⟩
  · have hlookup : fs.lookup (store.pendingFile id) ≠ none :=
      FileTree.lookup_ne_none_of_entry hpath hentry
    have hdst : fs.resolve (store.approvedFile id) = some (adir ++ [ruleFileName id]) :=
      resolve_joinPath_of_dir (isName_approved_of_noSlash hid) (fs.place_of_resolve h.approved)
        h.approvedDir.isDir
    -- Only a name that is too long is in the way.
    have hmoves : fs.sys.moves (pdir ++ [id ++ ".toml"]) (adir ++ [ruleFileName id])
        = fits (ruleFileName id) := by
      unfold System.moves
      rw [h.pendingDir.accepts_of_entry hentry, h.approvedDir.takes, List.dropLast_concat,
        List.dropLast_concat, h.together, beq_self_eq_true, Bool.and_true, Bool.true_and]
    have hrename : (fs.rename (store.pendingFile id) (store.approvedFile id)).2 = true ↔
        fits (ruleFileName id) = true := by
      rw [rename_ok_iff hpath hentry, hdst]
      simp only [Option.some.injEq, exists_eq_left', hmoves, ne_eq, h.approvedFree id,
        not_false_eq_true, and_true]
    by_cases hfits : fits (ruleFileName id) = true
    swap
    · have hrefused : Refused store fs id := by
        unfold Refused
        rw [hcreated]
        exact .inr (Bool.eq_false_iff.mpr (fun hok => hfits (hrename.mp hok)))
      have hresult := approve_refused hlookup hrefused
      rw [hcreated] at hresult
      exact .inl ⟨.inr (Bool.eq_false_iff.mpr hfits), hresult⟩
    have hworks : ¬ Refused store fs id := by
      unfold Refused
      rw [hcreated, hrename.mpr hfits]
      simp
    rcases approve_moved hlookup hworks with ⟨_, fs', hrename, hresult⟩
    rw [hcreated] at hrename
    rcases moved_of_rename h.wellFormed hpath hentry hrename with ⟨dst, hdst', hmoved⟩
    rw [← Option.some.inj (hdst.symm.trans hdst')] at hmoved
    have hdata := fs.data_rename (store.pendingFile id) (store.approvedFile id)
    rw [hrename] at hdata
    have hfill := refilled_of_moved h.wellFormed hmoved hdata hentry h.approvedDir.isDir
      (child_ne h.apart _ _)
    rw [contents_of_entry hentry] at hfill
    exact .inr ⟨fs.data inode, fs', _, hsome, hfits, hresult, hfill⟩

/-! ### Sweeping -/

section Sweep

variable {ttl : Nat} {dir : Path}

theorem entry_reapEntry_of_ne (acc : FileTree × Nat) (e : String × Entry) {q : Path}
    (hq : q ≠ dir ++ [e.1]) :
    (ApprovalStore.reapEntry now ttl dir acc e).1.entry q = acc.1.entry q := by
  have hremove := acc.1.entry_remove_of_ne (dir ++ [e.1]) q hq
  unfold ApprovalStore.reapEntry
  split
  · rfl
  · split
    · rfl
    · split
      · split
        · next h => rw [h] at hremove; exact hremove
        · next h => rw [h] at hremove; exact hremove
      · rfl

variable (now ttl) in
/-- One entry of a sweep sweeps the file of the entry. -/
theorem refilled_reapEntry {acc : FileTree × Nat} (hwell : WellFormed acc.1)
    (hdir : OpenDir acc.1 dir) {e : String × Entry} (he : acc.1.entry (dir ++ [e.1]) = some e.2) :
    Refilled acc.1 (ApprovalStore.reapEntry now ttl dir acc e).1
      (Function.update acc.1.contents (dir ++ [e.1])
        (Shelves.swept now ttl e.1 (acc.1.contents (dir ++ [e.1])))) := by
  have hstay : Shelves.swept now ttl e.1 (acc.1.contents (dir ++ [e.1]))
        = acc.1.contents (dir ++ [e.1]) →
      Refilled acc.1 acc.1 (Function.update acc.1.contents (dir ++ [e.1])
        (Shelves.swept now ttl e.1 (acc.1.contents (dir ++ [e.1])))) := by
    intro hsame
    rw [hsame, Function.update_eq_self]
    exact .refl hwell
  have hguard : (!startsWith e.1 "ai-approved-" || !endsWith e.1 ".toml") = !reapable e.1 := by
    unfold reapable
    rw [Bool.not_and]
  unfold ApprovalStore.reapEntry
  rw [hguard]
  by_cases hreap : reapable e.1 = true
  · rw [hreap, Bool.not_true, if_neg Bool.false_ne_true]
    cases hkind : e.2 with
    | dir =>
        rw [hkind] at he
        have hnone : acc.1.contents (dir ++ [e.1]) = none :=
          contents_eq_none (fun inode => by rw [he]; simp)
        refine hstay ?_
        rw [hnone]
        unfold Shelves.swept
        rw [if_pos hreap, Option.filter_none]
    | file inode =>
        rw [hkind] at he
        have hheld := contents_of_entry he
        dsimp only
        by_cases hold : ApprovalStore.expired now ttl (acc.1.data inode) = true
        · have hswept : Shelves.swept now ttl e.1 (some (acc.1.data inode)) = none := by
            unfold Shelves.swept
            rw [if_pos hreap, Option.filter_some, hold, Bool.not_true, if_neg Bool.false_ne_true]
          have hremove := refilled_remove hwell he (hdir.accepts_of_entry he)
          rw [if_pos hold, hheld, hswept]
          split
          · next h => rw [h] at hremove; exact hremove
          · next h => rw [h] at hremove; exact hremove
        · rw [if_neg hold]
          refine hstay ?_
          rw [hheld]
          unfold Shelves.swept
          rw [Bool.not_eq_true] at hold
          rw [if_pos hreap, Option.filter_some, hold, Bool.not_false, if_pos rfl]
  · rw [Bool.not_eq_true] at hreap
    rw [hreap, Bool.not_false, if_pos rfl]
    refine hstay ?_
    unfold Shelves.swept
    rw [hreap, if_neg Bool.false_ne_true]

variable (now ttl) in
/-- A sweep of listed entries sweeps their files and no other. -/
theorem refilled_foldl_reapEntry (acc : FileTree × Nat) (hwell : WellFormed acc.1)
    (hdir : OpenDir acc.1 dir) {entries : List (String × Entry)} (hnodup : (entries.map Prod.fst).Nodup)
    (hthere : ∀ e ∈ entries, acc.1.entry (dir ++ [e.1]) = some e.2) :
    ∃ held, Refilled acc.1 (entries.foldl (ApprovalStore.reapEntry now ttl dir) acc).1 held ∧
      (∀ e ∈ entries, held (dir ++ [e.1])
        = Shelves.swept now ttl e.1 (acc.1.contents (dir ++ [e.1]))) ∧
      ∀ q, (∀ e ∈ entries, q ≠ dir ++ [e.1]) → held q = acc.1.contents q := by
  induction entries generalizing acc with
  | nil =>
      exact ⟨acc.1.contents, .refl hwell, fun e he => absurd he List.not_mem_nil, fun _ _ => rfl⟩
  | cons e entries ih =>
      rw [List.map_cons, List.nodup_cons] at hnodup
      have hfirst := refilled_reapEntry now ttl hwell hdir (hthere e List.mem_cons_self)
      -- The entries behind the first are there after it.
      have hother : ∀ e' ∈ entries, dir ++ [e'.1] ≠ dir ++ [e.1] :=
        fun e' he' heq => hnodup.1 (List.mem_map.mpr ⟨e', he', child_inj heq⟩)
      rcases ih _ hfirst.wellFormed (hdir.refilled hfirst) hnodup.2 (fun e' he' => by
        rw [entry_reapEntry_of_ne acc e (hother e' he')]
        exact hthere e' (List.mem_cons_of_mem e he')) with ⟨held, hrest, hswept, hkept⟩
      refine ⟨held, hfirst.trans hrest, fun e' he' => ?_, fun q hq => ?_⟩
      · rcases List.mem_cons.mp he' with rfl | he'
        · rw [hkept _ (fun e'' he'' heq => hother e'' he'' heq.symm), hfirst.contents,
            Function.update_self]
        · rw [hswept e' he', hfirst.contents, Function.update_of_ne (hother e' he')]
      · rw [hkept q (fun e' he' => hq e' (List.mem_cons_of_mem e he')), hfirst.contents,
          Function.update_of_ne (hq e List.mem_cons_self)]

variable (now ttl) in
/-- The sweep of a store: the files in the approved directory are swept, and no others. -/
theorem Settled.reapExpired (h : Settled store fs pdir adir) :
    (store.reapExpired fs now ttl).2.isOk = true ∧
      ∃ held, Refilled fs (store.reapExpired fs now ttl).1 held ∧
        (∀ name, held (adir ++ [name])
          = Shelves.swept now ttl name (fs.contents (adir ++ [name]))) ∧
        ∀ q, (∀ name, q ≠ adir ++ [name]) → held q = fs.contents q := by
  rcases readDir_isSome h.approvedDir.isDir with ⟨entries, hentries⟩
  have hthere : ∀ e ∈ entries, fs.entry (adir ++ [e.1]) = some e.2 :=
    fun e he => (mem_readDir_iff hentries e.1 e.2).mp he
  rcases refilled_foldl_reapEntry now ttl (fs, 0) h.wellFormed h.approvedDir
    (nodup_readDir hentries) hthere with ⟨held, hfill, hswept, hkept⟩
  unfold ApprovalStore.reapExpired
  rw [h.approved]
  dsimp only
  rw [h.approvedDir.isDir]
  dsimp only
  rw [hentries]
  refine ⟨rfl, held, hfill, fun name => ?_, fun q hq => hkept q (fun e _ => hq e.1)⟩
  by_cases hlisted : ∃ e ∈ entries, e.1 = name
  · rcases hlisted with ⟨e, he, rfl⟩
    exact hswept e he
  · -- What is not listed is not there.
    have hnone : fs.contents (adir ++ [name]) = none := by
      refine contents_eq_none (fun inode hentry => hlisted ?_)
      exact ⟨_, (mem_readDir_iff hentries name _).mpr hentry, rfl⟩
    rw [hkept _ (fun e he heq => hlisted ⟨e, he, (child_inj heq).symm⟩), hnone]
    unfold Shelves.swept
    rw [Option.filter_none, ite_self]

end Sweep

/-! ### Operations and runs -/

variable (toText now) in
/-- An operation on the files is one on the shelves, with the same outcome, and every
    other file stays as it is. -/
theorem Settled.apply (h : Settled store fs pdir adir) {op : StoreOp} (hplain : op.Plain) :
    op.outcome toText store fs now = (shelvesOf pdir adir fs.contents).outcome toText now op ∧
      ∃ held, Refilled fs (op.apply toText store fs now) held ∧
        shelvesOf pdir adir held = (shelvesOf pdir adir fs.contents).apply toText now op ∧
        ∀ q, (∀ id, q ≠ pdir ++ [id ++ ".toml"]) → (∀ name, q ≠ adir ++ [name]) →
          held q = fs.contents q := by
  have hsame : ∀ {fs₁ : FileTree}, fs₁ = fs → Refilled fs fs₁ fs.contents := by
    intro fs₁ heq
    rw [heq]
    exact .refl h.wellFormed
  cases op with
  | stagePending rule =>
      have hstage := stage_shelved toText pdir adir now (fun id => id ++ ".toml") rule h.wellFormed
        h.pending h.pendingDir (isName_pending now rule.name) (h.pendingFree _) rfl
        (fun file => shelvesOf_pending h.apart _ _ (some file))
      rcases hstage with ⟨hresult, held, hfill, hshelves, hkept⟩
      refine ⟨hresult, held, hfill, ?_, fun q hq _ => hkept q (hq _)⟩
      rw [hshelves]
      unfold Shelves.apply
      dsimp only
      cases Shelves.staged toText (makeId now rule.name ++ ".toml") now rule <;> rfl
  | stageAuto rule =>
      have hstage := stage_shelved toText pdir adir now ruleFileName rule h.wellFormed
        h.approved h.approvedDir (isName_approved now rule.name) (h.approvedFree _) rfl
        (fun file => shelvesOf_rules h.apart _ _ (some file))
      rcases hstage with ⟨hresult, held, hfill, hshelves, hkept⟩
      refine ⟨hresult, held, hfill, ?_, fun q _ hq => hkept q (hq _)⟩
      rw [hshelves]
      unfold Shelves.apply
      dsimp only
      cases Shelves.staged toText (ruleFileName (makeId now rule.name)) now rule <;> rfl
  | approve id =>
      unfold StoreOp.outcome StoreOp.apply Shelves.outcome Shelves.apply
      dsimp only
      rcases h.approve hplain with ⟨hnone | hlong, e, hresult⟩ |
        ⟨file, fs', dst, hsome, hfits, hresult, hfill⟩
      · rw [hresult, hnone]
        exact ⟨rfl, _, hsame rfl, rfl, fun _ _ _ => rfl⟩
      · rw [hresult, hlong, Bool.and_false]
        refine ⟨rfl, _, hsame rfl, ?_, fun _ _ _ => rfl⟩
        cases (shelvesOf pdir adir fs.contents).pending id <;> rfl
      · rw [hresult, hsome, hfits]
        refine ⟨rfl, _, hfill, ?_, fun q hq hq' => ?_⟩
        · rw [shelvesOf_rules h.apart, shelvesOf_pending h.apart]
          rfl
        · rw [Function.update_of_ne (hq' _), Function.update_of_ne (hq _)]
  | reject id =>
      rcases h.reject hplain with ⟨hresult, hfill⟩
      exact ⟨hresult, _, hfill, shelvesOf_pending h.apart _ _ _,
        fun q hq _ => Function.update_of_ne (hq _) _ _⟩
  | reapExpired ttl =>
      rcases h.reapExpired now ttl with ⟨hresult, held, hfill, hswept, hkept⟩
      refine ⟨hresult, held, hfill, ?_, fun q _ hq => hkept q hq⟩
      unfold shelvesOf Shelves.apply
      congr 1
      · funext id
        exact hkept _ (fun name => child_ne h.apart _ _)
      · funext name
        exact hswept name

/-- What the operations of a run return, in order. -/
def outcomes (toText : RuleSet → Option String) (store : ApprovalStore) :
    FileTree → List (Nat × StoreOp) → List Bool
  | _, [] => []
  | fs, op :: ops =>
    op.2.outcome toText store fs op.1 :: outcomes toText store (op.2.apply toText store fs op.1) ops

/-- What they return on the shelves. -/
def Shelves.outcomes (toText : RuleSet → Option String) :
    Shelves → List (Nat × StoreOp) → List Bool
  | _, [] => []
  | sh, op :: ops =>
    sh.outcome toText op.1 op.2 :: Shelves.outcomes toText (sh.apply toText op.1 op.2) ops

variable (toText) in
/-- The directories stay as the store needs them, with the files of the shelves in them. -/
theorem Settled.run_shelved (h : Settled store fs pdir adir) (ops : List (Nat × StoreOp))
    (hplain : ∀ op ∈ ops, op.2.Plain) :
    Settled store (runStore toText store fs ops) pdir adir ∧
      shelvesOf pdir adir (runStore toText store fs ops).contents
        = (shelvesOf pdir adir fs.contents).run toText ops := by
  induction ops generalizing fs with
  | nil => exact ⟨h, rfl⟩
  | cons op ops ih =>
      rcases h.apply toText op.1 (hplain op List.mem_cons_self) with ⟨_, held, hfill, hshelves, _⟩
      have hrest := ih (h.refilled hfill) (fun op' h' => hplain op' (List.mem_cons_of_mem op h'))
      rw [hfill.contents, hshelves] at hrest
      exact hrest

variable (toText) in
theorem Settled.outcomes_run (h : Settled store fs pdir adir) (ops : List (Nat × StoreOp))
    (hplain : ∀ op ∈ ops, op.2.Plain) : outcomes toText store fs ops
      = Shelves.outcomes toText (shelvesOf pdir adir fs.contents) ops := by
  induction ops generalizing fs with
  | nil => rfl
  | cons op ops ih =>
      rcases h.apply toText op.1 (hplain op List.mem_cons_self) with
        ⟨hreturns, held, hfill, hshelves, _⟩
      have hrest := ih (h.refilled hfill) (fun op' h' => hplain op' (List.mem_cons_of_mem op h'))
      rw [hfill.contents, hshelves] at hrest
      unfold outcomes Shelves.outcomes
      rw [hreturns, hrest]

variable (toText) in
theorem Settled.kept_run (h : Settled store fs pdir adir) (ops : List (Nat × StoreOp))
    (hplain : ∀ op ∈ ops, op.2.Plain) {q : Path} (hq : ∀ id, q ≠ pdir ++ [id ++ ".toml"])
    (hq' : ∀ name, q ≠ adir ++ [name]) :
    (runStore toText store fs ops).contents q = fs.contents q := by
  induction ops generalizing fs with
  | nil => rfl
  | cons op ops ih =>
      rcases h.apply toText op.1 (hplain op List.mem_cons_self) with ⟨_, held, hfill, _, hkept⟩
      have hrest := ih (h.refilled hfill) (fun op' h' => hplain op' (List.mem_cons_of_mem op h'))
      rw [hfill.contents, hkept q hq hq'] at hrest
      exact hrest

variable (toText) in
/-- Every run of operations does to the files what it does to the two shelves, returns
    the same errors, and touches no file that is on neither. The directories stay as the
    store needs them. -/
theorem Settled.runStore_refines (h : Settled store fs pdir adir) (ops : List (Nat × StoreOp))
    (hplain : ∀ op ∈ ops, op.2.Plain) :
    Settled store (runStore toText store fs ops) pdir adir ∧
      shelvesOf pdir adir (runStore toText store fs ops).contents
        = (shelvesOf pdir adir fs.contents).run toText ops ∧
      outcomes toText store fs ops
        = Shelves.outcomes toText (shelvesOf pdir adir fs.contents) ops ∧
      ∀ q, (∀ id, q ≠ pdir ++ [id ++ ".toml"]) → (∀ name, q ≠ adir ++ [name]) →
        (runStore toText store fs ops).contents q = fs.contents q := by
  rcases h.run_shelved toText ops hplain with ⟨hsettled, hrun⟩
  exact ⟨hsettled, hrun, h.outcomes_run toText ops hplain,
    fun q hq hq' => h.kept_run toText ops hplain hq hq'⟩

end Steps

/-- The two directories, and nothing in them. -/
def bothDirs : FileTree := ((emptyRoot.createDirAll "/pending").1.createDirAll "/rules").1

/-- A rule is staged, approved, and rejected too late. -/
def review : List (Nat × StoreOp) :=
  [(1, .stagePending (Rule.bare "r" .alert)), (2, .approve "1-r"), (3, .reject "1-r"),
    (4, .reapExpired 9)]

theorem plain_review : ∀ op ∈ review, op.2.Plain := by
  intro op hop
  have hslash : '/' ∉ "1-r".toList := by decide
  rcases List.mem_cons.mp hop with rfl | hop
  · trivial
  rcases List.mem_cons.mp hop with rfl | hop
  · exact hslash
  rcases List.mem_cons.mp hop with rfl | hop
  · exact hslash
  · rw [List.mem_singleton.mp hop]
    trivial

theorem settled_bothDirs : Settled exampleStore bothDirs ["pending"] ["rules"] := by
  have hkeys : bothDirs.names.keys = [["rules"], ["pending"]] := by decide +kernel
  -- There is nothing below the two directories.
  have hempty : ∀ dir name, bothDirs.entry ([dir] ++ [name]) = none := by
    intro dir name
    rw [entry_eq_lookup _ (by simp), AList.lookup_eq_none, AList.mem_keys, hkeys]
    simp
  have hfree : ∀ dir name, bothDirs.entry ([dir] ++ [name]) ≠ some .dir :=
    fun dir name => by rw [hempty]; simp
  have hopen : ∀ dir, bothDirs.entry [dir] = some .dir → OpenDir bothDirs [dir] := by
    refine fun dir hdir => ⟨hdir, fun name => ?_, fun name hheld => ?_⟩
    · exact Bool.and_true _
    · rw [contents_eq_none (fun inode => by rw [hempty]; simp)] at hheld
      exact absurd rfl hheld
  exact ⟨(wellFormed_emptyRoot.createDirAll _).createDirAll _, by decide +kernel,
    by decide +kernel, hopen _ (by decide +kernel), hopen _ (by decide +kernel), by decide, rfl,
    fun _ => hfree _ _, fun _ => hfree _ _⟩

/-- What becomes of the rule on the shelves becomes of it in the directories. -/
theorem review_refines :
    Settled exampleStore (runStore (fun _ => some "") exampleStore bothDirs review)
        ["pending"] ["rules"] ∧
      shelvesOf ["pending"] ["rules"]
          (runStore (fun _ => some "") exampleStore bothDirs review).contents
        = (shelvesOf ["pending"] ["rules"] bothDirs.contents).run (fun _ => some "") review ∧
      outcomes (fun _ => some "") exampleStore bothDirs review
        = Shelves.outcomes (fun _ => some "")
            (shelvesOf ["pending"] ["rules"] bothDirs.contents) review ∧
      ∀ q, (∀ id, q ≠ ["pending"] ++ [id ++ ".toml"]) → (∀ name, q ≠ ["rules"] ++ [name]) →
        (runStore (fun _ => some "") exampleStore bothDirs review).contents q
          = bothDirs.contents q :=
  settled_bothDirs.runStore_refines (fun _ => some "") review plain_review

end VectorGuard
