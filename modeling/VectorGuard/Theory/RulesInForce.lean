import VectorGuard.Core.RuleReload
import VectorGuard.Theory.ApprovedRules
import VectorGuard.Theory.ConfigReload
import VectorGuard.Theory.Reviews

/-!
# Rules in Force

Which rules the pipeline judges by, while the files it reads them from change.

A change of the directory leaves a notification to be sent, and from then on a reload is on
its way to the pipeline: queued, in the hands of the watch loop, or published. So whenever
the pipeline is not about to read the directory, what it read last is what the directory
holds, or a reload is coming. A rebuild that the directory changes under reads nothing
reliable, but the change under it was noticed too and has a reload of its own.

In a quiescent state the rules in force are therefore those of the files in the directory.
When it is the store that changes the files, these are the files on its second shelf: an
approved rule is in force, one that is swept away is not, and without the automatic mode
there is none that nobody has reviewed.

## Main definitions

* `Coming`: A reload is on its way to the pipeline.
* `RuleReload.Fresh`: What the pipeline has read is what is there.
* `Shelves.InForce`: A rule is in a file on the second shelf.

## Theorems

* `RuleReload.fresh_step`: What every step preserves.
* `RuleReload.reads_of_quiescent`: What a quiescent pipeline has read.
* `RuleReload.inForce_of_quiescent`: Which rules are in force then.
-/

namespace VectorGuard

open FileTree Transition

variable {glob : GlobCrate} {parse : String → Option Config} {fromStr : String → Option RuleSet}
  {κ : Type} {edit : FileTree → κ → FileTree}

/-- A reload is on its way to the pipeline. -/
def Coming (s : HotReload glob) : Prop := Outstanding s ∨ s.watch ≠ .waiting ∨ s.unseen = true

/-- The change of the files in an action. -/
def RuleReloadAction.change : RuleReloadAction κ → Option κ
  | .edit k => some k
  | .reload _ => none

/-- A step of the pipeline, and none of the tasks before it. -/
def HotReloadAction.IsPipeline : HotReloadAction → Prop
  | .changed | .borrow | .rebuild _ => True
  | _ => False

/-- The steps before the pipeline bring a reload to it. -/
theorem coming_step {s t : HotReload glob} {a : HotReloadAction}
    (hstep : HotReloadStep parse fromStr s a t) (ha : ¬ a.IsPipeline) :
    Coming t ∧ t.pipeline = s.pipeline ∧ t.built = s.built ∧ t.fastPath = s.fastPath := by
  cases hstep with
  | write file => exact ⟨.inl (.inl rfl), rfl, rfl, rfl⟩
  | notify hroom => exact ⟨.inl (.inr (Nat.succ_pos s.queued)), rfl, rfl, rfl⟩
  | recv hphase hsome => exact ⟨.inr (.inl WatchPhase.noConfusion), rfl, rfl, rfl⟩
  | drain hphase hsome =>
      refine ⟨.inr (.inl ?_), rfl, rfl, rfl⟩
      dsimp only
      rw [hphase]
      exact WatchPhase.noConfusion
  | drained hphase hnone => exact ⟨.inr (.inl WatchPhase.noConfusion), rfl, rfl, rfl⟩
  | load torn file hphase hwhole =>
      refine ⟨.inr (.inl ?_), rfl, rfl, rfl⟩
      dsimp only
      cases Config.load parse file with
      | some cfg => exact WatchPhase.noConfusion
      | none => exact WatchPhase.noConfusion
  | replace cfg hphase => exact ⟨.inr (.inl WatchPhase.noConfusion), rfl, rfl, rfl⟩
  | reread hphase => exact ⟨.inr (.inl WatchPhase.noConfusion), rfl, rfl, rfl⟩
  | publish cfg hphase => exact ⟨.inr (.inr rfl), rfl, rfl, rfl⟩
  | changed hphase hunseen => exact absurd trivial ha
  | borrow hphase => exact absurd trivial ha
  | rebuild cfg listings hphase => exact absurd trivial ha

theorem HotReload.Quiescent.not_coming {s : HotReload glob} (h : s.Quiescent) : ¬ Coming s := by
  rintro ((howed | hqueued) | hwatch | hunseen)
  · rw [h.sent] at howed
    exact Bool.false_ne_true howed
  · rw [h.received] at hqueued
    exact Nat.lt_irrefl 0 hqueued
  · exact hwatch h.waiting
  · rw [h.seen] at hunseen
    exact Bool.false_ne_true hunseen

/-- A quiescent pipeline was built from the configuration in the file. -/
theorem UpToDate.built_of_quiescent {s : HotReload glob} (h : UpToDate parse fromStr s)
    (hquiet : s.Quiescent) {cfg : Config} (hfile : Config.load parse s.file = some cfg) :
    s.built = cfg := by
  have hidle := hquiet.not_coming
  have hwatch : s.watch.Fresh parse s :=
    h.watch.resolve_left (fun hout => hidle (.inl hout))
  have hpipeline : s.pipeline.Fresh s :=
    h.pipeline.resolve_left (fun hunseen => hidle (.inr (.inr hunseen)))
  rw [hquiet.waiting] at hwatch
  rw [hquiet.taken] at hpipeline
  exact hpipeline.trans (hwatch.2 cfg hfile).symm

namespace RuleReload

/-- The fast path was built from the directory as it is, if it was built from it. -/
def Reads (fromStr : String → Option RuleSet) (s : RuleReload glob) : Prop :=
  s.hot.built.fastPath.rulesPath = s.dir → ∃ listing,
    SameListing listing (rulesListing s.fs s.dir) ∧
      s.hot.fastPath = FastPath.ofRules s.hot.built.fastPath (RuleSet.loadDir fromStr listing)

/-- What the pipeline has read is what is there, or will be when it reads it. -/
def Fresh (fromStr : String → Option RuleSet) (s : RuleReload glob) : PipelinePhase → Prop
  | .selecting => Coming s.hot ∨ s.Reads fromStr
  | .changed => True
  | .rebuilding _ => s.torn = true → Coming s.hot

variable {s t : RuleReload glob} {a : RuleReloadAction κ}

theorem fresh_of_coming (h : Coming s.hot) : s.Fresh fromStr s.hot.pipeline := by
  cases s.hot.pipeline with
  | selecting => exact .inl h
  | changed => trivial
  | rebuilding cfg => exact fun _ => h

/-- A change that a reader of the directory can notice brings a reload. -/
theorem coming_of_edited {fs : FileTree} (hwatched : s.watched = true)
    (hchange : rulesListing fs s.dir ≠ rulesListing s.fs s.dir) : Coming (s.edited fs).hot := by
  unfold edited
  rw [if_neg hchange, hwatched]
  exact .inl (.inl (Bool.or_true _))

/-- A change of the files brings a reload, or nobody can tell. -/
theorem fresh_edited (fs : FileTree) (hwatched : (s.edited fs).watched = true)
    (h : s.watched = true → s.Fresh fromStr s.hot.pipeline) :
    (s.edited fs).Fresh fromStr (s.edited fs).hot.pipeline := by
  by_cases hsame : rulesListing fs s.dir = rulesListing s.fs s.dir
  · unfold edited at hwatched ⊢
    rw [if_pos hsame] at hwatched ⊢
    have hfresh := h hwatched
    revert hfresh
    unfold Fresh Reads
    dsimp only
    rw [hsame]
    exact id
  · refine fresh_of_coming (coming_of_edited ?_ hsame)
    unfold edited at hwatched
    rw [if_neg hsame] at hwatched
    exact (Bool.and_eq_true_iff.mp hwatched).1

/-- What the pipeline has read is what is there after every step, while the directory is
    watched. -/
theorem fresh_step (hstep : RuleReloadStep parse fromStr edit s a t)
    (h : s.watched = true → s.Fresh fromStr s.hot.pipeline) (hwatched : t.watched = true) :
    t.Fresh fromStr t.hot.pipeline := by
  cases hstep with
  | edit k => exact fresh_edited (edit s.fs k) hwatched h
  | reload a hot hhot hwhole =>
      have hfresh := h hwatched
      by_cases ha : a.IsPipeline
      · cases hhot with
        | changed hphase hunseen => trivial
        | borrow hphase => exact fun htorn => absurd htorn Bool.false_ne_true
        | rebuild cfg listings hphase =>
            rw [hphase] at hfresh
            by_cases htorn : s.torn = true
            · -- The directory was changed, so the rebuild does not count.
              exact .inl (hfresh htorn)
            · rw [Bool.not_eq_true] at htorn
              refine .inr (fun hdir => ?_)
              refine ⟨listings s.dir, hwhole cfg listings rfl hphase hdir htorn, ?_⟩
              dsimp only at hdir ⊢
              rw [← hdir]
              rfl
        | _ => exact absurd ha id
      · exact fresh_of_coming (coming_step hhot ha).1

/-! ### Runs -/

/-- What is true along every run. -/
structure Follows (parse : String → Option Config) (fromStr : String → Option RuleSet)
    (s : RuleReload glob) : Prop where
  upToDate : UpToDate parse fromStr s.hot
  fresh : s.watched = true → s.Fresh fromStr s.hot.pipeline

/-- A change of the rules leaves what is known of `config.toml`. -/
theorem upToDate_edited (fs : FileTree) (h : UpToDate parse fromStr s.hot) :
    UpToDate parse fromStr (s.edited fs).hot := by
  unfold edited
  by_cases hsame : rulesListing fs s.dir = rulesListing s.fs s.dir
  · rw [if_pos hsame]
    exact h
  · rw [if_neg hsame]
    refine ⟨?_, h.pipeline, h.scopeFilter, h.fastPath⟩
    rcases h.watch with (howed | hqueued) | hfresh
    · exact .inl (.inl (Bool.or_eq_true_iff.mpr (.inl howed)))
    · exact .inl (.inr hqueued)
    · exact .inr hfresh

theorem dir_edited (fs : FileTree) : (s.edited fs).dir = s.dir := by
  unfold edited
  split <;> rfl

theorem fs_edited (fs : FileTree) : (s.edited fs).fs = fs := by
  unfold edited
  split <;> rfl

theorem Follows.step (h : s.Follows parse fromStr)
    (hstep : RuleReloadStep parse fromStr edit s a t) : t.Follows parse fromStr := by
  refine ⟨?_, fresh_step hstep h.fresh⟩
  cases hstep with
  | edit k => exact upToDate_edited (edit s.fs k) h.upToDate
  | reload a hot hhot hwhole => exact step_upToDate s.hot hot a hhot h.upToDate

variable {cfg : Config} {listings : FileSystem} {fs : FileTree} {file : Option String}
  {acts : List (RuleReloadAction κ)}

theorem follows_of_run (hstart : Config.load parse file = some cfg)
    (hread : SameListing (listings cfg.fastPath.rulesPath) (rulesListing fs cfg.fastPath.rulesPath))
    (hrun : Run (RuleReloadStep parse fromStr edit) (init glob fromStr listings fs file cfg) acts s) :
    s.Follows parse fromStr := by
  refine hrun.invariant (I := fun _ s => s.Follows parse fromStr) ?_
    (fun _ _ _ _ _ h hst => h.step hst)
  refine ⟨upToDate_of_run hstart .nil, fun _ => .inr (fun _ => ?_)⟩
  exact ⟨listings cfg.fastPath.rulesPath, hread, rfl⟩

/-- A quiescent pipeline has read what is there. -/
theorem Follows.reads (h : s.Follows parse fromStr) (hwatched : s.watched = true)
    (hquiet : s.hot.Quiescent) : s.Reads fromStr := by
  have hfresh := h.fresh hwatched
  rw [hquiet.taken] at hfresh
  exact hfresh.resolve_left hquiet.not_coming

theorem dir_of_run
    (hrun : Run (RuleReloadStep parse fromStr edit) (init glob fromStr listings fs file cfg) acts s) :
    s.dir = cfg.fastPath.rulesPath := by
  refine hrun.invariant (I := fun _ s => s.dir = cfg.fastPath.rulesPath) rfl (fun _ s _ _ _ h hst => ?_)
  cases hst with
  | edit k => exact (dir_edited (edit s.fs k)).trans h
  | reload a hot hhot hwhole => exact h

theorem files_of_run
    (hrun : Run (RuleReloadStep parse fromStr edit) (init glob fromStr listings fs file cfg) acts s) :
    s.fs = (acts.filterMap RuleReloadAction.change).foldl edit fs := by
  refine hrun.invariant (I := fun acts s => s.fs = (acts.filterMap RuleReloadAction.change).foldl edit fs)
    rfl (fun acts s a t _ h hst => ?_)
  rw [List.filterMap_append, List.foldl_append, ← h]
  cases hst with
  | edit k => exact fs_edited (edit s.fs k)
  | reload a hot hhot hwhole => rfl

/-- In a quiescent state, with the directory still watched at its path, the pipeline runs the
    configuration in the file, with the rules in the directory. -/
theorem reads_of_quiescent (hstart : Config.load parse file = some cfg)
    (hread : SameListing (listings cfg.fastPath.rulesPath) (rulesListing fs cfg.fastPath.rulesPath))
    (hrun : Run (RuleReloadStep parse fromStr edit) (init glob fromStr listings fs file cfg) acts s)
    (hwatched : s.watched = true) (hquiet : s.hot.Quiescent) {cfg' : Config}
    (hfile : Config.load parse s.hot.file = some cfg')
    (hdir : cfg'.fastPath.rulesPath = cfg.fastPath.rulesPath) :
    s.hot.built = cfg' ∧ ∃ listing,
      SameListing listing (rulesListing s.fs cfg'.fastPath.rulesPath) ∧
        s.hot.fastPath = FastPath.ofRules cfg'.fastPath (RuleSet.loadDir fromStr listing) := by
  have hfollows := follows_of_run hstart hread hrun
  have hbuilt : s.hot.built = cfg' := hfollows.upToDate.built_of_quiescent hquiet hfile
  have hreads := hfollows.reads hwatched hquiet
  unfold Reads at hreads
  rw [hbuilt, dir_of_run hrun] at hreads
  rw [hdir]
  exact ⟨hbuilt, hreads hdir⟩

end RuleReload

/-! ### Rules in files -/

/-- A rule is in a rule file on the second shelf. -/
def Shelves.InForce (fromStr : String → Option RuleSet) (sh : Shelves) (rule : Rule) : Prop :=
  ∃ name file rs, sh.rules name = some file ∧
    DirEntry.extension ⟨bytes name, none⟩ = some (bytes "toml") ∧
    fromStr file.content = some rs ∧ rule ∈ rs.rules

theorem mem_rules_readEntry_iff {fs : FileTree} {e : String × Entry} {rule : Rule} :
    rule ∈ (readEntry fs e).rules fromStr ↔
      DirEntry.extension ⟨bytes e.1, none⟩ = some (bytes "toml") ∧
        ∃ inode rs, e.2 = .file inode ∧ fromStr (fs.data inode).content = some rs ∧
          rule ∈ rs.rules := by
  have hextension : (readEntry fs e).extension = DirEntry.extension ⟨bytes e.1, none⟩ := rfl
  unfold DirEntry.rules
  rw [hextension]
  by_cases hext : DirEntry.extension ⟨bytes e.1, none⟩ = some (bytes "toml")
  · rw [if_pos hext, and_iff_right hext]
    unfold readEntry
    cases e.2 with
    | dir => simp
    | file inode =>
        dsimp only
        cases hparse : fromStr (fs.data inode).content with
        | none => simp [hparse]
        | some rs => simp [hparse]
  · rw [if_neg hext]
    exact iff_of_false List.not_mem_nil (fun h => hext h.1)

/-- The rules of the files in the directory are those on the second shelf. -/
theorem mem_fileRules_iff {store : ApprovalStore} {fs : FileTree} {pdir adir : Path}
    (h : Settled store fs pdir adir) {rule : Rule} :
    rule ∈ fileRules fromStr fs store.approvedDir ↔
      (shelvesOf pdir adir fs.contents).InForce fromStr rule := by
  rcases readDir_isSome h.approvedDir.isDir with ⟨names, hnames⟩
  rw [fileRules_of_readDir h.approved hnames, List.mem_flatMap]
  constructor
  · rintro ⟨e, hmem, hrule⟩
    rcases mem_rules_readEntry_iff.mp hrule with ⟨hext, inode, rs, hkind, hparse, hin⟩
    have hentry := (mem_readDir_iff hnames e.1 e.2).mp hmem
    rw [hkind] at hentry
    exact ⟨e.1, _, rs, contents_of_entry hentry, hext, hparse, hin⟩
  · rintro ⟨name, file, rs, hheld, hext, hparse, hin⟩
    rcases exists_entry_of_contents hheld with ⟨inode, hentry, rfl⟩
    refine ⟨(name, .file inode), (mem_readDir_iff hnames name _).mpr hentry, ?_⟩
    exact mem_rules_readEntry_iff.mpr ⟨hext, inode, rs, rfl, hparse, hin⟩

/-- What is loaded from a listing, in whichever order: the rules in the files, or the
    built-in ones if there are none. -/
theorem mem_rules_loadDir_iff {fs : FileTree} {dir : String}
    {listing : Option (List (Option DirEntry))} (hsame : SameListing listing (rulesListing fs dir))
    {rule : Rule} : rule ∈ (RuleSet.loadDir fromStr listing).rules ↔
      rule ∈ fileRules fromStr fs dir ∨
        (∀ other, other ∉ fileRules fromStr fs dir) ∧ rule ∈ builtinRules := by
  have hrules : (RuleSet.loadDir fromStr listing).rules
      = if (listing.getD []).flatMap (entryRules fromStr) = [] then builtinRules
        else (listing.getD []).flatMap (entryRules fromStr) := by
    cases listing with
    | none => rfl
    | some entries => exact rules_loadDir fromStr entries
  have hperm : ((listing.getD []).flatMap (entryRules fromStr)).Perm (fileRules fromStr fs dir) := by
    unfold fileRules
    revert hsame
    cases rulesListing fs dir with
    | none =>
        intro hsame
        cases hsame
        exact .refl _
    | some entries =>
        intro hsame
        cases hsame with
        | some hperm => exact hperm.flatMap_right _
  rw [hrules, ← List.eq_nil_iff_forall_not_mem]
  by_cases hnone : fileRules fromStr fs dir = []
  · rw [hnone] at hperm ⊢
    rw [if_pos hperm.eq_nil]
    simp
  · have hsome : (listing.getD []).flatMap (entryRules fromStr) ≠ [] := by
      intro hempty
      rw [hempty] at hperm
      exact hnone hperm.nil_eq.symm
    rw [if_neg hsome, hperm.mem_iff]
    simp [hnone]

/-! ### The store -/

section Store

variable {toText : RuleSet → Option String} {store : ApprovalStore} {fs : FileTree}
  {pdir adir : Path} {listings : FileSystem} {file : Option String} {cfg cfg' : Config}
  {acts : List (RuleReloadAction (Nat × StoreOp))} {s : RuleReload glob}

/-- An operation on the store, as a change of the files. -/
def storeEdit (toText : RuleSet → Option String) (store : ApprovalStore) (fs : FileTree)
    (op : Nat × StoreOp) : FileTree := op.2.apply toText store fs op.1

theorem rulesListing_isSome (h : Settled store fs pdir adir) :
    (rulesListing fs store.approvedDir).isSome = true := by
  rcases readDir_isSome h.approvedDir.isDir with ⟨names, hnames⟩
  unfold rulesListing
  rw [h.approved, Option.bind_some, hnames]
  rfl

/-- The store leaves its directory where it is, so it stays watched. -/
theorem watched_of_run (hsettled : Settled store fs pdir adir)
    (hdir : cfg.fastPath.rulesPath = store.approvedDir)
    (hrun : Run (RuleReloadStep parse fromStr (storeEdit toText store))
      (RuleReload.init glob fromStr listings fs file cfg) acts s)
    (hplain : ∀ op ∈ acts.filterMap RuleReloadAction.change, op.2.Plain) :
    s.watched = true := by
  induction hrun with
  | nil =>
      change (rulesListing fs cfg.fastPath.rulesPath).isSome = true
      rw [hdir]
      exact rulesListing_isSome hsettled
  | @snoc acts s t a hrun hst ih =>
      rw [List.filterMap_append] at hplain
      have hbefore := ih (fun op hop => hplain op (List.mem_append_left _ hop))
      cases hst with
      | reload a hot hhot hwhole => exact hbefore
      | edit op =>
          have hthen : Settled store (storeEdit toText store s.fs op) pdir adir := by
            have hfiles := RuleReload.files_of_run (hrun.snoc (.edit op))
            rw [RuleReload.fs_edited, List.filterMap_append] at hfiles
            rw [hfiles]
            exact (hsettled.run_shelved toText _ hplain).1
          have hsdir : s.dir = store.approvedDir := (RuleReload.dir_of_run hrun).trans hdir
          unfold RuleReload.edited
          split
          · exact hbefore
          · dsimp only
            rw [hbefore, hsdir, rulesListing_isSome hthen]
            rfl

/-- In a quiescent state, with the configuration still at the directory of the store, the
    rules of the pipeline are those in the files on the second shelf, or the built-in ones if
    there are none. -/
theorem RuleReload.mem_rules_of_quiescent (hsettled : Settled store fs pdir adir)
    (hdir : cfg.fastPath.rulesPath = store.approvedDir) (hstart : Config.load parse file = some cfg)
    (hread : SameListing (listings store.approvedDir) (rulesListing fs store.approvedDir))
    (hrun : Run (RuleReloadStep parse fromStr (storeEdit toText store))
      (init glob fromStr listings fs file cfg) acts s)
    (hplain : ∀ op ∈ acts.filterMap RuleReloadAction.change, op.2.Plain)
    (hquiet : s.hot.Quiescent) (hfile : Config.load parse s.hot.file = some cfg')
    (hdir' : cfg'.fastPath.rulesPath = store.approvedDir) {sh : Shelves}
    (hsh : (shelvesOf pdir adir fs.contents).run toText
      (acts.filterMap RuleReloadAction.change) = sh) (rule : Rule) :
    rule ∈ s.hot.fastPath.rules ↔ sh.InForce fromStr rule ∨
      (∀ other, ¬ sh.InForce fromStr other) ∧ rule ∈ builtinRules := by
  rcases hsettled.run_shelved toText _ hplain with ⟨hthen, hshelves⟩
  have hwatched := watched_of_run hsettled hdir hrun hplain
  rw [← hdir] at hread
  have hfollows := follows_of_run hstart hread hrun
  have hcfg : s.hot.built.fastPath.rulesPath = s.dir := by
    rw [hfollows.upToDate.built_of_quiescent hquiet hfile, dir_of_run hrun, hdir, hdir']
  rcases hfollows.reads hwatched hquiet hcfg with ⟨listing, hsame, hbuilt⟩
  rw [dir_of_run hrun, hdir, files_of_run hrun] at hsame
  have hfiles : ∀ rule, rule ∈ fileRules fromStr
      (runStore toText store fs (acts.filterMap RuleReloadAction.change)) store.approvedDir ↔
        sh.InForce fromStr rule := by
    intro rule
    rw [mem_fileRules_iff hthen, hshelves, hsh]
  unfold FastPath.rules
  rw [hbuilt]
  refine (mem_rules_loadDir_iff hsame).trans ?_
  exact or_congr (hfiles rule)
    (and_congr_left (fun _ => forall_congr' (fun other => not_congr (hfiles other))))

/-- Without the automatic mode a rule on the second shelf was in a file there at the start,
    or is in a proposal that was approved. -/
theorem Shelves.InForce.reviewed {sh : Shelves} {ops : List (Nat × StoreOp)} {rule : Rule}
    (h : (sh.run toText ops).InForce fromStr rule)
    (hmanual : ∀ op ∈ ops, ∀ rule, op.2 ≠ .stageAuto rule) :
    sh.InForce fromStr rule ∨
      ∃ ops₁ t id ops₂ proposal rs, ops = ops₁ ++ (t, .approve id) :: ops₂ ∧
        (sh.run toText ops₁).pending id = some proposal ∧
        fromStr proposal.content = some rs ∧ rule ∈ rs.rules := by
  rcases h with ⟨name, held, rs, hheld, hext, hparse, hin⟩
  rcases rules_run hmanual hheld with hstart | ⟨ops₁, t, id, ops₂, hsplit, _, happroved⟩
  · exact .inl ⟨name, held, rs, hstart, hext, hparse, hin⟩
  · exact .inr ⟨ops₁, t, id, ops₂, held, rs, hsplit, happroved, hparse, hin⟩

/-- In a quiescent state, with the configuration still at the directory of the store, the
    rules in force are those in the files on the second shelf, or the built-in ones if there
    are none. Without the automatic mode each of them was in a file there at the start, or
    is in a proposal that was approved. -/
theorem RuleReload.inForce_of_quiescent (hsettled : Settled store fs pdir adir)
    (hdir : cfg.fastPath.rulesPath = store.approvedDir) (hstart : Config.load parse file = some cfg)
    (hread : SameListing (listings store.approvedDir) (rulesListing fs store.approvedDir))
    (hrun : Run (RuleReloadStep parse fromStr (storeEdit toText store))
      (init glob fromStr listings fs file cfg) acts s)
    (hplain : ∀ op ∈ acts.filterMap RuleReloadAction.change, op.2.Plain)
    (hquiet : s.hot.Quiescent) (hfile : Config.load parse s.hot.file = some cfg')
    (hdir' : cfg'.fastPath.rulesPath = store.approvedDir) :
    let ops := acts.filterMap RuleReloadAction.change
    let before := shelvesOf pdir adir fs.contents
    (∀ rule, rule ∈ s.hot.fastPath.rules ↔ (before.run toText ops).InForce fromStr rule ∨
      (∀ other, ¬ (before.run toText ops).InForce fromStr other) ∧ rule ∈ builtinRules) ∧
    ((∀ op ∈ ops, ∀ rule, op.2 ≠ .stageAuto rule) → ∀ rule,
      (before.run toText ops).InForce fromStr rule → before.InForce fromStr rule ∨
        ∃ ops₁ t id ops₂ proposal rs, ops = ops₁ ++ (t, .approve id) :: ops₂ ∧
          (before.run toText ops₁).pending id = some proposal ∧
          fromStr proposal.content = some rs ∧ rule ∈ rs.rules) := by
  intro ops before
  constructor
  · exact mem_rules_of_quiescent hsettled hdir hstart hread hrun hplain hquiet hfile hdir' rfl
  · exact fun hmanual rule h => h.reviewed hmanual

end Store

/-! ### A reload -/

theorem SameListing.refl (listing : Option (List (Option DirEntry))) : SameListing listing listing := by
  cases listing with
  | none => exact .none
  | some entries => exact .some (.refl entries)

theorem RuleReload.hot_edited (s : RuleReload glob) (fs : FileTree) :
    ∃ owed, (s.edited fs).hot = { s.hot with owed := owed } := by
  unfold edited
  split
  · exact ⟨_, rfl⟩
  · exact ⟨_, rfl⟩

/-- Whatever was missed, one reload makes it good. -/
theorem RuleReload.exists_run_reload (edit : FileTree → κ → FileTree) (s : RuleReload glob)
    {cfg : Config} (hqueued : s.hot.queued = 0) (hwatch : s.hot.watch = .waiting)
    (hpipeline : s.hot.pipeline = .selecting) (hload : Config.load parse s.hot.file = some cfg) :
    ∃ acts t, Run (RuleReloadStep parse fromStr edit) s acts t ∧ t.hot.Quiescent ∧
      t.hot.file = s.hot.file ∧ acts.filterMap RuleReloadAction.change = [] := by
  have hrun : Run (RuleReloadStep parse fromStr edit) s [] s := .nil
  have hrun := hrun.snoc (.reload .notify _ (.notify (by rw [hqueued]; decide))
    (fun _ _ h => by cases h))
  have hrun := hrun.snoc (.reload .recv _ (.recv hwatch (Nat.succ_pos _)) (fun _ _ h => by cases h))
  have hrun := hrun.snoc (.reload .drained _ (.drained rfl hqueued) (fun _ _ h => by cases h))
  have hrun := hrun.snoc (.reload (.load s.hot.file) _ (.load false s.hot.file rfl (fun _ => rfl))
    (fun _ _ h => by cases h))
  rw [hload] at hrun
  have hrun := hrun.snoc (.reload .replace _ (.replace cfg rfl) (fun _ _ h => by cases h))
  have hrun := hrun.snoc (.reload .publish _ (.publish cfg rfl) (fun _ _ h => by cases h))
  have hrun := hrun.snoc (.reload .changed _ (.changed hpipeline rfl) (fun _ _ h => by cases h))
  have hrun := hrun.snoc (.reload .borrow _ (.borrow rfl) (fun _ _ h => by cases h))
  have hrun := hrun.snoc (.reload (.rebuild (rulesListing s.fs)) _ (.rebuild cfg _ rfl)
    (fun _ _ h _ _ _ => by
      cases h
      exact .refl _))
  exact ⟨_, _, hrun, ⟨rfl, hqueued, rfl, rfl, rfl⟩, rfl, rfl⟩

/-- A configuration that reads its rules from the directory of the store. -/
def storeConfig : Config :=
  { monitorOnly "nc" with fastPath := { FastPathConfig.shipped with rulesPath := "/rules" } }

def parseStoreConfig (text : String) : Option Config := if text = "" then none else some storeConfig

/-- The daemon beside a store with nothing in it. -/
def besideStore : RuleReload GlobCrate.literal :=
  RuleReload.init GlobCrate.literal parseTwo (rulesListing bothDirs) bothDirs (some "nc") storeConfig

def approvedOps : List (Nat × StoreOp) :=
  [(1, .stagePending (Rule.bare "a-b" .alert)), (2, .approve "1-a-b")]

theorem plain_approvedOps : ∀ op ∈ approvedOps, op.2.Plain := by
  intro op hop
  rcases List.mem_cons.mp hop with rfl | hop
  · trivial
  · have hslash : '/' ∉ "1-a-b".toList := by decide
    rw [List.mem_singleton.mp hop]
    exact hslash

/-- A rule is staged and approved, and the pipeline reloads. -/
theorem exists_run_approved :
    ∃ acts s, Run (RuleReloadStep parseStoreConfig parseTwo (storeEdit writeTwo exampleStore))
        besideStore acts s ∧ acts.filterMap RuleReloadAction.change = approvedOps ∧
      s.hot.Quiescent ∧ Config.load parseStoreConfig s.hot.file = some storeConfig := by
  have hrun : Run (RuleReloadStep parseStoreConfig parseTwo (storeEdit writeTwo exampleStore))
      besideStore [] _ := .nil
  have hrun := hrun.snoc (.edit (1, .stagePending (Rule.bare "a-b" .alert)))
  have hrun := hrun.snoc (.edit (2, .approve "1-a-b"))
  rcases besideStore.hot_edited (storeEdit writeTwo exampleStore besideStore.fs
    (1, .stagePending (Rule.bare "a-b" .alert))) with ⟨owed, hfirst⟩
  rcases RuleReload.hot_edited _ (storeEdit writeTwo exampleStore _ (2, .approve "1-a-b")) with
    ⟨owed', hsecond⟩
  rw [hfirst] at hsecond
  have hload : Config.load parseStoreConfig (some "nc") = some storeConfig := rfl
  rcases RuleReload.exists_run_reload (storeEdit writeTwo exampleStore) _
    (congrArg HotReload.queued hsecond) (congrArg HotReload.watch hsecond)
    (congrArg HotReload.pipeline hsecond) (by rw [congrArg HotReload.file hsecond]; exact hload) with
    ⟨acts, t, hreload, hquiet, hfile, hnone⟩
  refine ⟨_, t, hrun.append hreload, ?_, hquiet, ?_⟩
  · rw [List.filterMap_append, hnone]
    rfl
  · rw [hfile, congrArg HotReload.file hsecond]
    exact hload

/-- The pipeline has read what the store has left in the directory. -/
theorem approved_reads :
    ∃ acts s, Run (RuleReloadStep parseStoreConfig parseTwo (storeEdit writeTwo exampleStore))
        besideStore acts s ∧ s.hot.built = storeConfig ∧ ∃ listing,
      SameListing listing (rulesListing s.fs storeConfig.fastPath.rulesPath) ∧
        s.hot.fastPath = FastPath.ofRules storeConfig.fastPath (RuleSet.loadDir parseTwo listing) := by
  rcases exists_run_approved with ⟨acts, s, hrun, hops, hquiet, hfile⟩
  have hwatched := watched_of_run settled_bothDirs rfl hrun (by rw [hops]; exact plain_approvedOps)
  exact ⟨acts, s, hrun, RuleReload.reads_of_quiescent rfl (.refl _) hrun hwatched hquiet hfile rfl⟩

/-- The approved rule is in force. -/
theorem approved_in_force :
    ∃ acts s, Run (RuleReloadStep parseStoreConfig parseTwo (storeEdit writeTwo exampleStore))
        besideStore acts s ∧ Rule.bare "a-b" .alert ∈ s.hot.fastPath.rules := by
  rcases exists_run_approved with ⟨acts, s, hrun, hops, hquiet, hfile⟩
  have hall := (RuleReload.inForce_of_quiescent settled_bothDirs rfl rfl (.refl _) hrun
    (by rw [hops]; exact plain_approvedOps) hquiet hfile rfl).1
  refine ⟨acts, s, hrun, (hall _).mpr (.inl ?_)⟩
  rw [hops]
  refine ⟨"ai-approved-1-a-b.toml", ⟨ruleHeader ++ bareText "a-b" "alert", 1⟩,
    ⟨[Rule.bare "a-b" .alert]⟩, ?_, ?_, ?_, List.mem_cons_self⟩
  · decide +kernel
  · decide +kernel
  · decide +kernel

end VectorGuard
