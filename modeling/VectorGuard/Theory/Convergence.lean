import VectorGuard.Core.Daemon
import VectorGuard.Lib.Transition
import VectorGuard.Theory.Loading

/-!
# Convergence of Kernel and Pipeline

Whether the kernel maps end up with the rules of the pipeline, over every
interleaving of the collector's start-up, edits and reloads.

The kernel maps hold the rules of the last load. That is the collector's until
a reload gets to load, and the pipeline's own from then on. So the question at
a quiescent state is whether a reload has got to load, and if none has, whether
the collector started with the keys the pipeline ended with
(`quiescent_holds_iff`).

A reload that rebuilds the fast path before the enforcer is published does not
load, and nothing makes up for it. In a run without such a reload the maps
converge: either some reload has loaded, or there was none, and then there was
no edit either and the two tasks read the same rules.

## Main definitions

* `SameKeys`: Two rule lists contribute the same keys.

## Theorems

* `undisturbed_of_run`: Before the first reload the tasks read the same rules.
* `collector_holds_of_run`: Before the first load by a reload the maps hold the
  collector's rules.
* `pipeline_holds_of_run`: After it they hold the pipeline's.
* `quiescent_holds_iff`: When the maps hold the pipeline's rules.
* `converges_of_no_skip`: They do in every run that skips no load.
-/

namespace VectorGuard

variable {fromStr : String → Option RuleSet} {cfg : FastPathConfig} {fs : FileSystem}
  {start : BlockMaps} {acts : List DaemonAction} {s : Daemon}

/-- The fast path the collector has built, whatever it has done with it. -/
def CollectorPhase.fastPath? : CollectorPhase → Option FastPath
  | .starting => none
  | .built tmpFp => some tmpFp
  | .loaded tmpFp => some tmpFp
  | .published tmpFp => some tmpFp

/-- Two rule lists contribute the same keys. -/
def SameKeys (rules rules' : List Rule) : Prop :=
  ∀ k, (computeBlockKeys rules).has k ↔ (computeBlockKeys rules').has k

theorem holdsExactly_iff_sameKeys (maps : BlockMaps) (rules rules' : List Rule)
    (h : maps.HoldsExactly (computeBlockKeys rules)) :
    maps.HoldsExactly (computeBlockKeys rules') ↔ SameKeys rules rules' := by
  rw [holdsExactly_iff] at h ⊢
  unfold SameKeys
  simp only [h]

/-- Nothing has been edited and both tasks read what was there at the start. -/
structure Undisturbed (fromStr : String → Option RuleSet) (cfg : FastPathConfig) (fs : FileSystem)
    (s : Daemon) : Prop where
  sameCfg : s.startCfg = cfg
  sameFs : s.fs = fs
  collector : ∀ tmpFp, s.collector.fastPath? = some tmpFp → tmpFp = FastPath.new fromStr fs cfg
  pipeline : ∀ fp, s.fastPath = some fp → fp = FastPath.new fromStr fs cfg

/-- Until a reload starts, an edit leaves a mark, and without one the daemon is
    undisturbed. -/
theorem undisturbed_of_run
    (hrun : Transition.Run (DaemonStep fromStr) (Daemon.init cfg fs start) acts s) :
    DaemonAction.reloadBuild ∉ acts →
      s.dirty = true ∨ s.changed = true ∨ Undisturbed fromStr cfg fs s := by
  refine hrun.invariant (I := fun acts s => DaemonAction.reloadBuild ∉ acts →
    s.dirty = true ∨ s.changed = true ∨ Undisturbed fromStr cfg fs s) ?_ ?_
  · intro _
    refine Or.inr (Or.inr ⟨rfl, rfl, ?_, ?_⟩)
    · exact fun _ h => absurd h (by simp only [Daemon.init, CollectorPhase.fastPath?, reduceCtorEq,
        not_false_eq_true])
    · exact fun _ h => absurd h (by simp only [Daemon.init, reduceCtorEq, not_false_eq_true])
  · intro acts t a u _ ih hstep hnone
    rw [List.mem_append, List.mem_singleton, not_or] at hnone
    have hmark := ih hnone.1
    cases hstep with
    | editConfig cfg' =>
        exact Or.inl rfl
    | editRules fs' =>
        exact Or.inl rfl
    | notice =>
        exact Or.inr (Or.inl rfl)
    | collectorBuild hphase =>
        -- What is built is built from what was there at the start.
        refine hmark.imp id (Or.imp id (fun h => ⟨h.sameCfg, h.sameFs, ?_, h.pipeline⟩))
        intro tmpFp htmp
        rw [CollectorPhase.fastPath?, Option.some.injEq, h.sameFs, h.sameCfg] at htmp
        exact htmp.symm
    | collectorLoad tmpFp maps hphase hload =>
        refine hmark.imp id (Or.imp id (fun h => ⟨h.sameCfg, h.sameFs, ?_, h.pipeline⟩))
        have hcollector := h.collector
        rw [hphase] at hcollector
        exact hcollector
    | collectorPublish tmpFp hphase =>
        refine hmark.imp id (Or.imp id (fun h => ⟨h.sameCfg, h.sameFs, ?_, h.pipeline⟩))
        have hcollector := h.collector
        rw [hphase] at hcollector
        exact hcollector
    | pipelineStart hstart =>
        refine hmark.imp id (Or.imp id (fun h => ⟨h.sameCfg, h.sameFs, h.collector, ?_⟩))
        intro fp hfp
        rw [Option.some.injEq, h.sameFs, h.sameCfg] at hfp
        exact hfp.symm
    | reloadBuild hstart hchanged hidle =>
        exact absurd rfl hnone.2
    | reloadLoad fp tmpFp maps hbusy hfp hphase hload =>
        exact hmark.imp id (Or.imp id (fun h => ⟨h.sameCfg, h.sameFs, h.collector, h.pipeline⟩))
    | reloadSkip hbusy hphase =>
        exact hmark.imp id (Or.imp id (fun h => ⟨h.sameCfg, h.sameFs, h.collector, h.pipeline⟩))

/-- Once the collector has loaded, and until a reload does, the maps hold the
    collector's rules. -/
theorem collector_holds_of_run
    (hrun : Transition.Run (DaemonStep fromStr) (Daemon.init cfg fs start) acts s) :
    DaemonAction.reloadLoad ∉ acts → ∀ tmpFp,
      s.collector = .loaded tmpFp ∨ s.collector = .published tmpFp →
        s.maps.HoldsExactly (computeBlockKeys tmpFp.rules) := by
  refine hrun.invariant (I := fun acts s => DaemonAction.reloadLoad ∉ acts → ∀ tmpFp,
    s.collector = .loaded tmpFp ∨ s.collector = .published tmpFp →
      s.maps.HoldsExactly (computeBlockKeys tmpFp.rules)) ?_ ?_
  · intro _ tmpFp h
    simp only [Daemon.init, reduceCtorEq, or_self] at h
  · intro acts t a u _ ih hstep hnone tmpFp hcollector
    rw [List.mem_append, List.mem_singleton, not_or] at hnone
    have hheld := ih hnone.1
    cases hstep with
    | editConfig cfg' =>
        exact hheld tmpFp hcollector
    | editRules fs' =>
        exact hheld tmpFp hcollector
    | notice =>
        exact hheld tmpFp hcollector
    | collectorBuild hphase =>
        simp only [reduceCtorEq, or_self] at hcollector
    | collectorLoad tmpFp' maps hphase hload =>
        simp only [CollectorPhase.loaded.injEq, reduceCtorEq, or_false] at hcollector
        rw [← hcollector]
        exact holdsExactly_of_loadRules t.maps maps tmpFp'.rules hload
    | collectorPublish tmpFp' hphase =>
        -- Publishing hands on what was loaded.
        simp only [CollectorPhase.published.injEq, reduceCtorEq, false_or] at hcollector
        rw [← hcollector]
        exact hheld tmpFp' (Or.inl hphase)
    | pipelineStart hstart =>
        exact hheld tmpFp hcollector
    | reloadBuild hstart hchanged hidle =>
        exact hheld tmpFp hcollector
    | reloadLoad fp tmpFp' maps hbusy hfp hphase hload =>
        exact absurd rfl hnone.2
    | reloadSkip hbusy hphase =>
        exact hheld tmpFp hcollector

/-- Once a reload has loaded, the maps hold the rules of the pipeline whenever
    no reload is under way. -/
theorem pipeline_holds_of_run
    (hrun : Transition.Run (DaemonStep fromStr) (Daemon.init cfg fs start) acts s) :
    DaemonAction.reloadLoad ∈ acts → (∃ tmpFp, s.collector = .published tmpFp) ∧
      (s.reloading = true ∨
        ∃ fp, s.fastPath = some fp ∧ s.maps.HoldsExactly (computeBlockKeys fp.rules)) := by
  refine hrun.invariant (I := fun acts s => DaemonAction.reloadLoad ∈ acts →
    (∃ tmpFp, s.collector = .published tmpFp) ∧ (s.reloading = true ∨
      ∃ fp, s.fastPath = some fp ∧ s.maps.HoldsExactly (computeBlockKeys fp.rules))) ?_ ?_
  · intro h
    exact absurd h List.not_mem_nil
  · intro acts t a u _ ih hstep hsome
    rw [List.mem_append, List.mem_singleton] at hsome
    have hbefore := fun hne : a ≠ .reloadLoad => ih (hsome.resolve_right (fun h => hne h.symm))
    cases hstep with
    | reloadLoad fp tmpFp maps hbusy hfp hphase hload =>
        -- The load is of the pipeline's rules, over whatever was there.
        refine ⟨⟨tmpFp, hphase⟩, Or.inr ⟨fp, hfp, ?_⟩⟩
        exact holdsExactly_of_loadRules t.maps maps fp.rules hload
    | editConfig cfg' =>
        exact hbefore nofun
    | editRules fs' =>
        exact hbefore nofun
    | notice =>
        exact hbefore nofun
    | collectorBuild hphase =>
        -- A reload has loaded, so the collector is done and takes no further step.
        rcases (hbefore nofun).1 with ⟨tmpFp, hpub⟩
        exact absurd (hphase.symm.trans hpub) nofun
    | collectorLoad tmpFp' maps hphase hload =>
        rcases (hbefore nofun).1 with ⟨tmpFp, hpub⟩
        exact absurd (hphase.symm.trans hpub) nofun
    | collectorPublish tmpFp' hphase =>
        rcases (hbefore nofun).1 with ⟨tmpFp, hpub⟩
        exact absurd (hphase.symm.trans hpub) nofun
    | pipelineStart hstart =>
        rcases hbefore nofun with ⟨hpub, hbusy | ⟨fp, hfp, _⟩⟩
        · exact ⟨hpub, Or.inl hbusy⟩
        · exact absurd (hstart.symm.trans hfp) nofun
    | reloadBuild hstart hchanged hidle =>
        exact ⟨(hbefore nofun).1, Or.inl rfl⟩
    | reloadSkip hbusy hphase =>
        -- The enforcer stays published, so later reloads are not skipped.
        rcases (hbefore nofun).1 with ⟨tmpFp, hpub⟩
        exact absurd hpub (hphase tmpFp)

/-- A reload that has started is under way, has loaded, or was skipped. -/
theorem reload_ends_of_run
    (hrun : Transition.Run (DaemonStep fromStr) (Daemon.init cfg fs start) acts s) :
    DaemonAction.reloadBuild ∈ acts → s.reloading = true ∨ DaemonAction.reloadLoad ∈ acts ∨
      DaemonAction.reloadSkip ∈ acts := by
  refine hrun.invariant (I := fun acts s => DaemonAction.reloadBuild ∈ acts →
    s.reloading = true ∨ DaemonAction.reloadLoad ∈ acts ∨ DaemonAction.reloadSkip ∈ acts) ?_ ?_
  · intro h
    exact absurd h List.not_mem_nil
  · intro acts t a u _ ih hstep hsome
    simp only [List.mem_append, List.mem_singleton] at hsome ⊢
    have hbefore := fun hne : a ≠ .reloadBuild => ih (hsome.resolve_right (fun h => hne h.symm))
    -- What was said of the actions so far is said of one more.
    have hkept : t.reloading = true ∨ .reloadLoad ∈ acts ∨ .reloadSkip ∈ acts →
        t.reloading = true ∨ (.reloadLoad ∈ acts ∨ .reloadLoad = a) ∨
          (.reloadSkip ∈ acts ∨ .reloadSkip = a) :=
      Or.imp id (Or.imp Or.inl Or.inl)
    cases hstep with
    | editConfig cfg' =>
        exact hkept (hbefore nofun)
    | editRules fs' =>
        exact hkept (hbefore nofun)
    | notice =>
        exact hkept (hbefore nofun)
    | collectorBuild hphase =>
        exact hkept (hbefore nofun)
    | collectorLoad tmpFp maps hphase hload =>
        exact hkept (hbefore nofun)
    | collectorPublish tmpFp hphase =>
        exact hkept (hbefore nofun)
    | pipelineStart hstart =>
        exact hkept (hbefore nofun)
    | reloadBuild hstart hchanged hidle =>
        exact Or.inl rfl
    | reloadLoad fp tmpFp maps hbusy hfp hphase hload =>
        exact Or.inr (Or.inl (Or.inr rfl))
    | reloadSkip hbusy hphase =>
        exact Or.inr (Or.inr (Or.inr rfl))

/-- At a quiescent state the maps hold the pipeline's rules exactly when some
    reload has loaded them, or the collector's rules have the same keys. -/
theorem quiescent_holds_iff
    (hrun : Transition.Run (DaemonStep fromStr) (Daemon.init cfg fs start) acts s)
    {tmpFp fp : FastPath} (hquiet : s.Quiescent tmpFp fp) :
    s.maps.HoldsExactly (computeBlockKeys fp.rules) ↔
      DaemonAction.reloadLoad ∈ acts ∨ SameKeys tmpFp.rules fp.rules := by
  by_cases hloaded : DaemonAction.reloadLoad ∈ acts
  · rcases (pipeline_holds_of_run hrun hloaded).2 with hbusy | ⟨fp', hfp, hheld⟩
    · rw [hquiet.idle] at hbusy
      exact absurd hbusy nofun
    · rw [hquiet.started, Option.some.injEq] at hfp
      subst hfp
      exact ⟨fun _ => Or.inl hloaded, fun _ => hheld⟩
  · -- No reload has loaded: the kernel still has what the collector read.
    have hheld := collector_holds_of_run hrun hloaded tmpFp (Or.inr hquiet.published)
    rw [holdsExactly_iff_sameKeys s.maps tmpFp.rules fp.rules hheld]
    exact ⟨Or.inr, fun h => h.resolve_left hloaded⟩

/-- In a run in which every reload that rebuilds the fast path also gets to load
    the maps, the maps hold the pipeline's rules at every quiescent state. -/
theorem converges_of_no_skip
    (hrun : Transition.Run (DaemonStep fromStr) (Daemon.init cfg fs start) acts s)
    (hnoskip : DaemonAction.reloadSkip ∉ acts) {tmpFp fp : FastPath}
    (hquiet : s.Quiescent tmpFp fp) : s.maps.HoldsExactly (computeBlockKeys fp.rules) := by
  rw [quiescent_holds_iff hrun hquiet]
  by_cases hbuilt : DaemonAction.reloadBuild ∈ acts
  · rcases reload_ends_of_run hrun hbuilt with hbusy | hloaded | hskipped
    · rw [hquiet.idle] at hbusy
      exact absurd hbusy nofun
    · exact Or.inl hloaded
    · exact absurd hskipped hnoskip
  · -- Without a reload there was no edit, so both tasks read the same rules.
    rcases undisturbed_of_run hrun hbuilt with hdirty | hchanged | hcalm
    · rw [hquiet.noticed] at hdirty
      exact absurd hdirty nofun
    · rw [hquiet.seen] at hchanged
      exact absurd hchanged nofun
    · have htmp := hcalm.collector tmpFp (by rw [hquiet.published]; rfl)
      have hfp := hcalm.pipeline fp hquiet.started
      rw [htmp, hfp]
      exact Or.inr (fun _ => Iff.rfl)

def rootText : String :=
  "[[rules]]\nname = \"block-root\"\naction = \"block\"\nmatch_uid = 0\n"

/-- What that text parses to. -/
def parseRoot (text : String) : Option RuleSet :=
  if text = rootText then some ⟨[rootRule]⟩ else none

/-- A rules directory without a file, and the same with the rule on root. -/
def noFiles : FileSystem := fun _ => some []

def rootFile : FileSystem := fun _ => some [some ⟨bytes "root.toml", some rootText⟩]

theorem loadRules_noFiles :
    loadRules BlockMaps.empty (FastPath.new parseRoot noFiles .shipped).rules
      = ((loadRules BlockMaps.empty (FastPath.new parseRoot noFiles .shipped).rules).1, .ok ()) :=
  loadRules_of_fit _ _ (by decide)

theorem loadRules_rootFile (maps : BlockMaps) :
    loadRules maps (FastPath.new parseRoot rootFile .shipped).rules
      = ((loadRules maps (FastPath.new parseRoot rootFile .shipped).rules).1, .ok ()) :=
  loadRules_of_fit _ _ (by decide)

/-- An edit after start-up reaches the kernel. -/
theorem converges_after_start :
    ∃ s fp, Transition.Run (DaemonStep parseRoot) (Daemon.init .shipped noFiles BlockMaps.empty)
        [.collectorBuild, .collectorLoad, .collectorPublish, .pipelineStart, .editRules rootFile,
          .notice, .reloadBuild, .reloadLoad] s ∧
      s.fastPath = some fp ∧ s.maps.HoldsExactly (computeBlockKeys fp.rules) := by
  have hrun : Transition.Run (DaemonStep parseRoot) (Daemon.init .shipped noFiles BlockMaps.empty)
      [] _ := Transition.Run.nil
  have hrun := hrun.snoc (.collectorBuild rfl)
  have hrun := hrun.snoc (.collectorLoad _ _ rfl loadRules_noFiles)
  have hrun := hrun.snoc (.collectorPublish _ rfl)
  have hrun := hrun.snoc (.pipelineStart rfl)
  have hrun := hrun.snoc (.editRules rootFile)
  have hrun := hrun.snoc .notice
  have hrun := hrun.snoc (.reloadBuild nofun rfl rfl)
  have hrun := hrun.snoc (.reloadLoad _ _ _ rfl rfl rfl (loadRules_rootFile _))
  exact ⟨_, _, hrun, rfl, converges_of_no_skip hrun (by simp) ⟨rfl, rfl, rfl, rfl, rfl⟩⟩

/-- The same edit while the collector is starting is rebuilt into the pipeline
    and never reaches the kernel. -/
theorem edit_before_publish_lost :
    ∃ s tmpFp fp, Transition.Run (DaemonStep parseRoot)
        (Daemon.init .shipped noFiles BlockMaps.empty)
        [.collectorBuild, .pipelineStart, .editRules rootFile, .notice, .reloadBuild, .reloadSkip,
          .collectorLoad, .collectorPublish] s ∧
      s.Quiescent tmpFp fp ∧ ¬ s.maps.HoldsExactly (computeBlockKeys fp.rules) := by
  have hrun : Transition.Run (DaemonStep parseRoot) (Daemon.init .shipped noFiles BlockMaps.empty)
      [] _ := Transition.Run.nil
  have hrun := hrun.snoc (.collectorBuild rfl)
  have hrun := hrun.snoc (.pipelineStart rfl)
  have hrun := hrun.snoc (.editRules rootFile)
  have hrun := hrun.snoc .notice
  have hrun := hrun.snoc (.reloadBuild nofun rfl rfl)
  have hrun := hrun.snoc (.reloadSkip rfl nofun)
  have hrun := hrun.snoc (.collectorLoad _ _ rfl loadRules_noFiles)
  have hrun := hrun.snoc (.collectorPublish _ rfl)
  refine ⟨_, _, _, hrun, ⟨rfl, rfl, rfl, rfl, rfl⟩, ?_⟩
  intro h
  rcases h with ⟨_, _, huids⟩
  have hroot := (huids 0).mpr (by decide)
  exact absurd hroot (by decide)

end VectorGuard
