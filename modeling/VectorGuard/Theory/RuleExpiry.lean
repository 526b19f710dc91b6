import VectorGuard.Core.Approval

/-!
# Rule Expiry

How long a staged rule file is safe from the reaper.

The reaper goes by the modification time of a file, which staging sets and
nothing but another write changes: approving a proposal moves its file and
leaves the time alone. So the time to live counts from staging. A file that
waited for its review has that much less of it left, and one that waited for
longer than the whole of it is removed by the next sweep.

Files are followed by their inode, through every path they are moved to.

## Main definitions

* `StoreOp`: The operations on a store, and what they do to the file system.

## Theorems

* `mtime_runStore`: A run moves no modification time back.
* `entry_reapExpired`: The reaper keeps every file that is not old enough.
* `kept_until_ttl`: A staged file is kept until its time to live has passed.
-/

namespace VectorGuard

open FileTree

inductive StoreOp
  | stagePending (rule : Rule)
  | stageAuto (rule : Rule)
  | approve (id : String)
  | reject (id : String)
  | reapExpired (ttl : Nat)

variable (toText : RuleSet → Option String) (store : ApprovalStore)

/-- What an operation at a time leaves of a file system. -/
def StoreOp.apply (fs : FileTree) (now : Nat) : StoreOp → FileTree
  | .stagePending rule => (store.stagePending toText fs now rule).1
  | .stageAuto rule => (store.stageAuto toText fs now rule).1
  | .approve id => (store.approve fs id).1
  | .reject id => (store.reject fs id).1
  | .reapExpired ttl => (store.reapExpired fs now ttl).1

/-- The file system after operations at their times. -/
def runStore (fs : FileTree) (ops : List (Nat × StoreOp)) : FileTree :=
  ops.foldl (fun fs op => op.2.apply toText store fs op.1) fs

variable (fs : FileTree) (now : Nat)

theorem data_approve (id : String) : (store.approve fs id).1.data = fs.data := by
  unfold ApprovalStore.approve
  simp only
  have hdirs := fs.data_createDirAll store.approvedDir
  split
  · rfl
  · split
    · next h => rw [h] at hdirs; exact hdirs
    · next fs' h =>
        rw [h] at hdirs
        have hrename := fs'.data_rename (store.pendingFile id) (store.approvedFile id)
        split
        · next h' => rw [h'] at hrename; exact hrename.trans hdirs
        · next h' => rw [h'] at hrename; exact hrename.trans hdirs

theorem data_reject (id : String) : (store.reject fs id).1.data = fs.data := by
  unfold ApprovalStore.reject
  simp only
  split
  · rfl
  · split
    · next fs' h =>
        rcases Option.map_eq_some_iff.mp h with ⟨path, _, hremove⟩
        have hdata := fs.data_remove path
        rw [hremove] at hdata
        exact hdata
    · rfl

theorem data_reapEntry (ttl : Nat) (dir : Path) (acc : FileTree × Nat) (e : String × Entry) :
    (ApprovalStore.reapEntry now ttl dir acc e).1.data = acc.1.data := by
  unfold ApprovalStore.reapEntry
  split
  · rfl
  · split
    · rfl
    · split
      · have hdata := acc.1.data_remove (dir ++ [e.1])
        split
        · next h => rw [h] at hdata; exact hdata
        · next h => rw [h] at hdata; exact hdata
      · rfl

theorem data_foldl_reapEntry (ttl : Nat) (dir : Path) (entries : List (String × Entry))
    (acc : FileTree × Nat) :
    (entries.foldl (ApprovalStore.reapEntry now ttl dir) acc).1.data = acc.1.data := by
  induction entries generalizing acc with
  | nil => rfl
  | cons e rest ih => rw [List.foldl_cons, ih, data_reapEntry]

theorem data_reapExpired (ttl : Nat) : (store.reapExpired fs now ttl).1.data = fs.data := by
  unfold ApprovalStore.reapExpired
  split
  · rfl
  · split
    · rfl
    · split
      · rfl
      · exact data_foldl_reapEntry now ttl _ _ _

variable {since inode : Nat}

theorem mtime_writeRule (path : String) (rule : Rule) (hnow : since ≤ now)
    (hmtime : since ≤ (fs.data inode).mtime) :
    since ≤ ((writeRule toText fs now path rule).1.data inode).mtime := by
  unfold writeRule
  split
  · exact hmtime
  · next body _ =>
      have hwrite := fs.mtime_le_write now path (ruleHeader ++ body) inode since hnow hmtime
      split
      · next h => rw [h] at hwrite; exact hwrite
      · next h => rw [h] at hwrite; exact hwrite

theorem mtime_stage (dir : String) (file : String → String) (rule : Rule) (hnow : since ≤ now)
    (hmtime : since ≤ (fs.data inode).mtime) :
    since ≤ ((ApprovalStore.stage toText fs now dir file rule).1.data inode).mtime := by
  have hdirs := fs.data_createDirAll dir
  unfold ApprovalStore.stage
  split
  · next h =>
      rw [h] at hdirs
      simp only at hdirs ⊢
      rw [hdirs]
      exact hmtime
  · next fs' h =>
      rw [h] at hdirs
      have hmtime' : since ≤ (fs'.data inode).mtime := by rw [hdirs]; exact hmtime
      have hwrite := mtime_writeRule toText fs' now (file (makeId now rule.name)) rule hnow hmtime'
      simp only
      split
      · next h => rw [h] at hwrite; exact hwrite
      · next h => rw [h] at hwrite; exact hwrite

/-- No operation moves a modification time back before the times of the run. -/
theorem mtime_apply (op : StoreOp) (hnow : since ≤ now) (hmtime : since ≤ (fs.data inode).mtime) :
    since ≤ ((op.apply toText store fs now).data inode).mtime := by
  cases op with
  | stagePending rule => exact mtime_stage toText fs now _ _ rule hnow hmtime
  | stageAuto rule => exact mtime_stage toText fs now _ _ rule hnow hmtime
  -- The others move and remove names and leave every inode alone.
  | approve id =>
      unfold StoreOp.apply
      rw [data_approve]
      exact hmtime
  | reject id =>
      unfold StoreOp.apply
      rw [data_reject]
      exact hmtime
  | reapExpired ttl =>
      unfold StoreOp.apply
      rw [data_reapExpired]
      exact hmtime

theorem mtime_runStore (ops : List (Nat × StoreOp)) (hclock : ∀ op ∈ ops, since ≤ op.1)
    (hmtime : since ≤ (fs.data inode).mtime) :
    since ≤ ((runStore toText store fs ops).data inode).mtime := by
  induction ops generalizing fs with
  | nil => exact hmtime
  | cons op rest ih =>
      exact ih (op.2.apply toText store fs op.1)
        (fun op' hmem => hclock op' (List.mem_cons_of_mem op hmem))
        (mtime_apply toText store fs op.1 op.2 (hclock op List.mem_cons_self) hmtime)

/-- What a rule was written to carries the time of the write. -/
theorem mtime_of_writeRule (path : String) (rule : Rule) (fs' : FileTree)
    (hwrite : writeRule toText fs now path rule = (fs', .ok ()))
    (hfile : fs'.lookup path = some (.file inode)) : (fs'.data inode).mtime = now := by
  unfold writeRule at hwrite
  split at hwrite
  · exact absurd (congrArg Prod.snd hwrite) (by simp)
  · next body _ =>
      split at hwrite
      · next fs'' h =>
          have hfs : fs'' = fs' := congrArg Prod.fst hwrite
          rw [hfs] at h
          cases hpath : fs.resolve path with
          | none =>
              unfold FileTree.write at h
              rw [hpath] at h
              exact absurd (congrArg Prod.snd h) (by simp)
          | some p =>
              -- The path leads after the write to where it led before.
              have hpath' := fs.resolve_write now path (ruleHeader ++ body) path p hpath
              rw [h] at hpath'
              rw [FileTree.lookup_of_resolve hpath'] at hfile
              have hmtime := fs.mtime_of_write now path (ruleHeader ++ body) p inode hpath
              rw [h] at hmtime
              exact hmtime rfl hfile
      · exact absurd (congrArg Prod.snd hwrite) (by simp)

/-- What a successful staging wrote carries its time. -/
theorem mtime_of_stage (dir : String) (file : String → String) (rule : Rule) (id : String)
    (fs' : FileTree) (hstage : ApprovalStore.stage toText fs now dir file rule = (fs', .ok id))
    (hfile : fs'.lookup (file id) = some (.file inode)) : (fs'.data inode).mtime = now := by
  unfold ApprovalStore.stage at hstage
  split at hstage
  · exact absurd (congrArg Prod.snd hstage) (by simp)
  · next fs₁ _ =>
      simp only at hstage
      split at hstage
      · exact absurd (congrArg Prod.snd hstage) (by simp)
      · next fs₂ hrule =>
          simp only [Prod.mk.injEq, Except.ok.injEq] at hstage
          rw [← hstage.2] at hfile
          rw [← hstage.1] at hfile ⊢
          exact mtime_of_writeRule toText fs₁ now _ rule fs₂ hrule hfile

/-- One entry of a sweep does not remove a file that is too young, whatever the
    sweep has removed before. -/
theorem entry_reapEntry (ttl : Nat) (dir path : Path) (e : String × Entry)
    (acc : FileTree × Nat) (hyoung : now < (acc.1.data inode).mtime + ttl)
    (hlisted : path = dir ++ [e.1] → e.2 = .file inode)
    (hfile : acc.1.entry path = some (.file inode)) :
    (ApprovalStore.reapEntry now ttl dir acc e).1.entry path = some (.file inode) := by
  unfold ApprovalStore.reapEntry
  split
  · exact hfile
  · split
    · exact hfile
    · next inode' he =>
        split
        · next hexpired =>
            -- The entry that goes is another one, since this one is too young.
            have hne : path ≠ dir ++ [e.1] := by
              intro heq
              have hsame := hlisted heq
              rw [he] at hsame
              rw [Entry.file.inj hsame] at hexpired
              simp only [ApprovalStore.expired, Bool.and_eq_true, decide_eq_true_eq] at hexpired
              omega
            have hentry := (acc.1.entry_remove_of_ne (dir ++ [e.1]) path hne).trans hfile
            split
            · next h => rw [h] at hentry; exact hentry
            · next h => rw [h] at hentry; exact hentry
        · exact hfile

theorem entry_foldl_reapEntry (ttl : Nat) (dir path : Path) (entries : List (String × Entry))
    (acc : FileTree × Nat) (hyoung : now < (acc.1.data inode).mtime + ttl)
    (hlisted : ∀ e ∈ entries, path = dir ++ [e.1] → e.2 = .file inode)
    (hfile : acc.1.entry path = some (.file inode)) :
    (entries.foldl (ApprovalStore.reapEntry now ttl dir) acc).1.entry path
      = some (.file inode) := by
  -- The entries were listed before the sweep, so what they say of the file is
  -- assumed of all of them and does not depend on what has been removed.
  induction entries generalizing acc with
  | nil => exact hfile
  | cons e rest ih =>
      rw [List.foldl_cons]
      refine ih _ ?_ (fun e' hmem => hlisted e' (List.mem_cons_of_mem e hmem)) ?_
      · rw [data_reapEntry]
        exact hyoung
      · exact entry_reapEntry now ttl dir path e acc hyoung (hlisted e List.mem_cons_self) hfile

/-- The reaper keeps every file that is not old enough. -/
theorem entry_reapExpired (ttl : Nat) (path : Path) (hyoung : now < (fs.data inode).mtime + ttl)
    (hfile : fs.entry path = some (.file inode)) :
    (store.reapExpired fs now ttl).1.entry path = some (.file inode) := by
  unfold ApprovalStore.reapExpired
  split
  · exact hfile
  · next dir _ =>
      split
      · exact hfile
      · split
        · exact hfile
        · next entries hentries =>
            refine entry_foldl_reapEntry now ttl dir path entries (fs, 0) hyoung ?_ hfile
            intro e hmem hpath
            have hentry := fs.entry_of_mem_readDir hentries hmem
            rw [← hpath, hfile] at hentry
            exact (Option.some.inj hentry).symm

/-- A file that staging wrote is kept, wherever approving has moved it by then,
    by every sweep that comes before its time to live has passed since the
    staging. -/
theorem kept_until_ttl (s : Nat) (rule : Rule) (id : String) (fs' : FileTree) (inode : Nat)
    (hstaged :
      (store.stagePending toText fs s rule = (fs', .ok id) ∧
        fs'.lookup (store.pendingFile id) = some (.file inode)) ∨
      (store.stageAuto toText fs s rule = (fs', .ok id) ∧
        fs'.lookup (store.approvedFile id) = some (.file inode)))
    (ops : List (Nat × StoreOp)) (u ttl : Nat)
    (hclock : (s :: (ops.map Prod.fst ++ [u])).Pairwise (· ≤ ·)) (hage : u < s + ttl) (path : Path)
    (hfile : (runStore toText store fs' ops).entry path = some (.file inode)) :
    (store.reapExpired (runStore toText store fs' ops) u ttl).1.entry path
      = some (.file inode) := by
  have hmtime : (fs'.data inode).mtime = s := by
    rcases hstaged with ⟨hstage, hlookup⟩ | ⟨hstage, hlookup⟩
    · exact mtime_of_stage toText fs s _ _ rule id fs' hstage hlookup
    · exact mtime_of_stage toText fs s _ _ rule id fs' hstage hlookup
  have hsince : ∀ op ∈ ops, s ≤ op.1 := by
    intro op hmem
    have htimes := (List.pairwise_cons.mp hclock).1
    exact htimes op.1 (List.mem_append_left [u] (List.mem_map_of_mem hmem))
  -- Nothing has moved the time back since the staging, so the file is too young.
  have hlater := mtime_runStore toText store fs' ops hsince (Nat.le_of_eq hmtime.symm)
  exact entry_reapExpired store _ u ttl path (by omega) hfile

/-- One file system, on which nothing but a name that is too long is refused. -/
def openSystem : System where
  cwd := []
  mount := fun _ => 0
  refused := fun _ => false

/-- An empty file system and a store in it. -/
def emptyRoot : FileTree where
  names := ∅
  data := fun _ => ⟨"", 0⟩
  next := 0
  sys := openSystem
  inode_lt := by simp

def exampleStore : ApprovalStore := ⟨"/pending", "/rules"⟩

/-- The empty file system after a rule was staged at the start. -/
def stagedAtZero : FileTree :=
  (exampleStore.stagePending (fun _ => some "") emptyRoot 0 (Rule.bare "r" .alert)).1

/-- A rule approved after five of ten units of time is there at the ninth. -/
theorem approved_kept_at_nine :
    (exampleStore.reapExpired (runStore (fun _ => some "") exampleStore stagedAtZero
      [(5, .approve "0-r")]) 9 10).1.entry ["rules", "ai-approved-0-r.toml"] = some (.file 0) :=
  kept_until_ttl (fun _ => some "") exampleStore emptyRoot 0 (Rule.bare "r" .alert) "0-r"
    stagedAtZero 0 (.inl ⟨Prod.ext rfl (by rfl), by decide +kernel⟩) [(5, .approve "0-r")] 9 10
    (by decide) (by decide) _ (by decide +kernel)

/-- A rule approved at the tenth is gone at the eleventh. -/
theorem approved_gone_at_eleven :
    (runStore (fun _ => some "") exampleStore stagedAtZero [(10, .approve "0-r")]).entry
        ["rules", "ai-approved-0-r.toml"] = some (.file 0) ∧
      11 < 10 + 10 ∧
      (exampleStore.reapExpired (runStore (fun _ => some "") exampleStore stagedAtZero
        [(10, .approve "0-r")]) 11 10).1.entry ["rules", "ai-approved-0-r.toml"] = none := by
  decide +kernel

end VectorGuard
