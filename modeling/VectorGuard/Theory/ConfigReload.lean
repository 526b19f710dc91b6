import VectorGuard.Core.HotReload
import VectorGuard.Lib.Transition

/-!
# Configuration Reload

A quiescent daemon runs the configuration that is in its file.

The watch loop drains the channel before it loads, so what it drops was sent
before the load begins and the load sees the write it was sent for. A write that
comes later leaves a notification behind, queued or still to be sent, until the
loop is back to take it. `Fresh` says of every place the loop can be that either
such a notification is outstanding or what the loop has in hand is what the file
holds. On the other side, the pipeline holds the published value, or has one to
take.

## Main definitions

* `Outstanding`: A notification that has not been taken.
* `WatchPhase.Fresh`: What the watch loop has in hand is up to date.
* `PipelinePhase.Fresh`: What the pipeline has in hand is the published value.

## Theorems

* `upToDate_of_run`: Both hold along every run.
* `converges_of_run`: In a quiescent state everything equals the file.
-/

namespace VectorGuard

variable {parse : String → Option Config} {fromStr : String → Option RuleSet} {glob : GlobCrate}

/-- A notification is queued or still to be sent. -/
def Outstanding (s : HotReload glob) : Prop := s.owed = true ∨ 0 < s.queued

/-- The file, if it loads, holds a configuration. -/
def Holds (parse : String → Option Config) (s : HotReload glob) (cfg : Config) : Prop :=
  ∀ cfg', Config.load parse s.file = some cfg' → cfg' = cfg

/-- What the watch loop has in hand is what the file holds. -/
def WatchPhase.Fresh (parse : String → Option Config) (s : HotReload glob) : WatchPhase → Prop
  | .waiting => Holds parse s s.shared ∧ Holds parse s s.published
  | .draining => True
  | .loading torn => torn = false
  | .replacing cfg => Holds parse s cfg
  | .rereading => Config.load parse s.file = none
  | .publishing cfg => Holds parse s s.shared ∧ Holds parse s cfg

/-- What the pipeline has in hand is the published value. -/
def PipelinePhase.Fresh (s : HotReload glob) : PipelinePhase → Prop
  | .selecting => s.built = s.published
  | .changed => True
  | .rebuilding cfg => cfg = s.published

/-- The state of both tasks, unless something is on its way to them. -/
structure UpToDate (parse : String → Option Config) (fromStr : String → Option RuleSet)
    (s : HotReload glob) : Prop where
  watch : Outstanding s ∨ s.watch.Fresh parse s
  pipeline : s.unseen = true ∨ s.pipeline.Fresh s
  scopeFilter : s.scopeFilter = ScopeFilter.new glob s.built.scope
  fastPath : ∃ fs, s.fastPath = FastPath.new fromStr fs s.built.fastPath

theorem holds_of_load {s : HotReload glob} {cfg : Config}
    (h : Config.load parse s.file = some cfg) : Holds parse s cfg := by
  intro cfg' h'
  rw [h] at h'
  exact (Option.some.inj h').symm

theorem holds_of_load_none {s : HotReload glob} (cfg : Config)
    (h : Config.load parse s.file = none) : Holds parse s cfg := by
  intro cfg' h'
  rw [h] at h'
  exact absurd h' (by simp)

/-- What the watch loop has in hand is up to date after every step, or a
    notification is outstanding. -/
theorem step_watch (s t : HotReload glob) (a : HotReloadAction)
    (hstep : HotReloadStep parse fromStr s a t) (h : Outstanding s ∨ s.watch.Fresh parse s) :
    Outstanding t ∨ t.watch.Fresh parse t := by
  cases hstep with
  | write file =>
      -- Whatever the loop has in hand is stale, but a notification is owed.
      exact .inl (.inl rfl)
  | notify hroom =>
      exact .inl (.inr (Nat.succ_pos s.queued))
  | recv hphase hsome =>
      -- Nothing is in hand before the load.
      exact .inr trivial
  | drain hphase hsome =>
      refine .inr ?_
      simp only [hphase]
      exact trivial
  | drained hphase hnone =>
      exact .inr rfl
  | load torn file hphase hwhole =>
      rcases h with hout | hfresh
      · exact .inl hout
      · -- The file was not written since the load began, so it was read as it is.
        rw [hphase] at hfresh
        rw [hwhole hfresh]
        refine .inr ?_
        cases hload : Config.load parse s.file with
        | some cfg => exact holds_of_load hload
        | none => exact hload
  | replace cfg hphase =>
      rcases h with hout | hfresh
      · exact .inl hout
      · rw [hphase] at hfresh
        exact .inr ⟨hfresh, hfresh⟩
  | reread hphase =>
      rcases h with hout | hfresh
      · exact .inl hout
      · -- The file does not load, so what is published need not equal it.
        rw [hphase] at hfresh
        exact .inr ⟨holds_of_load_none s.shared hfresh, holds_of_load_none s.shared hfresh⟩
  | publish cfg hphase =>
      rcases h with hout | hfresh
      · exact .inl hout
      · rw [hphase] at hfresh
        exact .inr hfresh
  | changed hphase hunseen =>
      exact h
  | borrow hphase =>
      exact h
  | rebuild cfg fs hphase =>
      exact h

/-- The pipeline holds the published value after every step, or has one to take. -/
theorem step_pipeline (s t : HotReload glob) (a : HotReloadAction)
    (hstep : HotReloadStep parse fromStr s a t) (h : s.unseen = true ∨ s.pipeline.Fresh s) :
    t.unseen = true ∨ t.pipeline.Fresh t := by
  cases hstep with
  | publish cfg hphase =>
      exact .inl rfl
  | changed hphase hunseen =>
      exact .inr trivial
  | borrow hphase =>
      exact .inr rfl
  | rebuild cfg fs hphase =>
      rcases h with hunseen | hfresh
      · exact .inl hunseen
      · rw [hphase] at hfresh
        exact .inr hfresh
  | _ =>
      exact h

theorem step_upToDate (s t : HotReload glob) (a : HotReloadAction)
    (hstep : HotReloadStep parse fromStr s a t) (h : UpToDate parse fromStr s) :
    UpToDate parse fromStr t where
  watch := step_watch s t a hstep h.watch
  pipeline := step_pipeline s t a hstep h.pipeline
  scopeFilter := by
    cases hstep with
    | rebuild cfg fs hphase => rfl
    | _ => exact h.scopeFilter
  fastPath := by
    cases hstep with
    | rebuild cfg fs hphase => exact ⟨fs, rfl⟩
    | _ => exact h.fastPath

variable {acts : List HotReloadAction} {fs : FileSystem} {file : Option String} {cfg : Config}
  {s : HotReload glob}

theorem upToDate_of_run (hstart : Config.load parse file = some cfg)
    (hrun : Transition.Run (HotReloadStep parse fromStr)
      (HotReload.init glob fromStr fs file cfg) acts s) : UpToDate parse fromStr s := by
  refine hrun.invariant (I := fun _ s => UpToDate parse fromStr s) ?_ ?_
  · exact {
      watch := .inr ⟨holds_of_load hstart, holds_of_load hstart⟩
      pipeline := .inr rfl
      scopeFilter := rfl
      fastPath := ⟨fs, rfl⟩ }
  · intro _ t a u _ ih hstep
    exact step_upToDate t u a hstep ih

/-- In every quiescent state that any order of steps reaches, a configuration
    that the file holds is the shared one and the one the pipeline runs. -/
theorem converges_of_run (hstart : Config.load parse file = some cfg)
    (hrun : Transition.Run (HotReloadStep parse fromStr)
      (HotReload.init glob fromStr fs file cfg) acts s)
    (hquiet : s.Quiescent) (cfg' : Config) (hfile : Config.load parse s.file = some cfg') :
    s.shared = cfg' ∧ s.built = cfg' ∧ s.scopeFilter = ScopeFilter.new glob cfg'.scope ∧
      ∃ fs', s.fastPath = FastPath.new fromStr fs' cfg'.fastPath := by
  have h := upToDate_of_run hstart hrun
  -- Nothing is outstanding or unseen in a quiescent state, so both tasks are fresh.
  have hwatch : s.watch.Fresh parse s := by
    rcases h.watch with hout | hfresh
    · rcases hout with howed | hqueued
      · rw [hquiet.sent] at howed
        exact absurd howed (by decide)
      · rw [hquiet.received] at hqueued
        exact absurd hqueued (Nat.lt_irrefl 0)
    · exact hfresh
  have hpipeline : s.pipeline.Fresh s := by
    rcases h.pipeline with hunseen | hfresh
    · rw [hquiet.seen] at hunseen
      exact absurd hunseen (by decide)
    · exact hfresh
  rw [hquiet.waiting] at hwatch
  rw [hquiet.taken] at hpipeline
  have hbuilt : s.built = cfg' := hpipeline.trans (hwatch.2 cfg' hfile).symm
  have hscope := h.scopeFilter
  have hfast := h.fastPath
  rw [hbuilt] at hscope hfast
  exact ⟨(hwatch.1 cfg' hfile).symm, hbuilt, hscope, hfast⟩

/-- A configuration that monitors one program. -/
def monitorOnly (binary : String) : Config where
  scope := ⟨[binary], [], [], [], []⟩
  fastPath := .shipped
  slowPath :=
    { enabled := false
      timeWindowSecs := 10
      similarityThreshold := 0.85
      vectordb := .usearch }
  aiAdvisor := .default

/-- A file that names the program to monitor, and is no configuration when it is
    empty. -/
def parseMonitorOnly (text : String) : Option Config :=
  if text = "" then none else some (monitorOnly text)

/-- A file is emptied and written again, and the loop drains the notification of
    the second write before it loads. -/
theorem nc_monitored :
    ∃ s : HotReload GlobCrate.literal,
      Transition.Run (HotReloadStep parseMonitorOnly (fun _ => none))
        (HotReload.init GlobCrate.literal (fun _ => none) (fun _ => none) "sh" (monitorOnly "sh"))
        [.write (some ""), .notify, .recv, .write (some "nc"), .notify, .drain, .drained,
          .load (some "nc"), .replace, .publish, .changed, .borrow, .rebuild (fun _ => none)] s ∧
      s.shared = monitorOnly "nc" ∧ s.built = monitorOnly "nc" ∧
      s.scopeFilter = ScopeFilter.new GlobCrate.literal (monitorOnly "nc").scope ∧
      ∃ fs', s.fastPath = FastPath.new (fun _ => none) fs' (monitorOnly "nc").fastPath := by
  have hrun : Transition.Run (HotReloadStep parseMonitorOnly (fun _ => none))
      (HotReload.init GlobCrate.literal (fun _ => none) (fun _ => none) "sh" (monitorOnly "sh"))
      [] _ := Transition.Run.nil
  have hrun := hrun.snoc (.write (some ""))
  have hrun := hrun.snoc (.notify (by decide))
  have hrun := hrun.snoc (.recv rfl (by decide))
  have hrun := hrun.snoc (.write (some "nc"))
  have hrun := hrun.snoc (.notify (by decide))
  have hrun := hrun.snoc (.drain rfl (by decide))
  have hrun := hrun.snoc (.drained rfl rfl)
  have hrun := hrun.snoc (.load false (some "nc") rfl (fun _ => rfl))
  have hrun := hrun.snoc (.replace (monitorOnly "nc") rfl)
  have hrun := hrun.snoc (.publish (monitorOnly "nc") rfl)
  have hrun := hrun.snoc (.changed rfl rfl)
  have hrun := hrun.snoc (.borrow rfl)
  have hrun := hrun.snoc (.rebuild _ (fun _ => none) rfl)
  exact ⟨_, hrun, converges_of_run rfl hrun ⟨rfl, rfl, rfl, rfl, rfl⟩ _ rfl⟩

end VectorGuard
