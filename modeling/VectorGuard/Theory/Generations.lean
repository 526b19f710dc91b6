import VectorGuard.Theory.Passage

/-!
# Generations

Which configuration an event is judged by.

A reload takes three steps in the pipeline task, and the watch channel may change
between any two of them: a change is noticed, a value is borrowed, which need not be
the one that was noticed, and the filters are rebuilt from it. No event is received
meanwhile. So the two filters of an event always come from one published
configuration, and never from two. The configurations of successive events may skip
some that were published, but do not go back.

## Main definitions

* `Dataflow.Watched`: What holds between the versions and the watch channel.
* `Dataflow.BuiltFrom`: Filters of one published configuration.
* `Dataflow.Judged`: What holds between the filters and the events.

## Theorems

* `watched_of_run`, `judged_of_run`: These hold in every run.
* `generations_of_run`: One configuration per event, in the order of publication.
-/

namespace VectorGuard

open Transition

namespace DataflowAction

/-- What is sent to the watch channel. -/
def publication : DataflowAction → List Config
  | .publish cfg => [cfg]
  | _ => []

/-- The version of the filters of the event that is received. -/
def generation : DataflowAction → List Nat
  | .receive _ _ built _ => [built]
  | _ => []

end DataflowAction

open DataflowAction

/-- The reload that the pipeline is in, with what it has borrowed if it has. -/
def PipelineTaskAt.reload : PipelineTaskAt → Option (Option (Nat × Config))
  | .changed => some none
  | .rebuilding version cfg => some (some (version, cfg))
  | _ => none

theorem PipelineTaskAt.reload_withEvent (n : Nat) (verdict : Option NormalizedEvent) :
    (PipelineTaskAt.withEvent n verdict).reload = none := by
  cases verdict with
  | none => rfl
  | some ev => rfl

namespace Dataflow

variable {glob : GlobCrate} {term : Terminal}

variable {fromStr : String → Option RuleSet} {fs : FileSystem} {cfg : Config}
  {configs : List Config} {acts : List DataflowAction} {s t : Dataflow glob term}
  {a : DataflowAction}

/-! ### Versions -/

/-- What the versions in a state say of the values the watch channel has had. -/
structure Watched (configs : List Config) (s : Dataflow glob term) : Prop where
  current : configs[s.version]? = some s.published
  count : configs.length = s.version + 1
  seen : s.pipelineSeen ≤ s.version
  built : s.built ≤ s.version
  borrowed : ∀ version cfg, s.pipeline.reload = some (some (version, cfg)) →
    configs[version]? = some cfg ∧ s.built ≤ version ∧ version ≤ s.version
  /-- With every value seen, the last one is in use or in hand. -/
  latest : s.pipelineSeen = s.version → (s.pipeline.reload = none → s.built = s.version) ∧
    ∀ version cfg, s.pipeline.reload = some (some (version, cfg)) → version = s.version

theorem watched_init (fromStr : String → Option RuleSet) (fs : FileSystem) (cfg : Config)
    (slowPath : SlowPath) (st : term.State) :
    Watched [cfg] (init fromStr fs cfg slowPath st : Dataflow glob term) where
  current := rfl
  count := rfl
  seen := Nat.le_refl 0
  built := Nat.le_refl 0
  borrowed _ _ h := absurd h (by simp [init, PipelineTaskAt.reload])
  latest _ := ⟨fun _ => rfl, fun _ _ h => absurd h (by simp [init, PipelineTaskAt.reload])⟩

/-- A step that is no part of a reload. -/
theorem Watched.quiet (h : Watched configs s) (hreload : t.pipeline.reload = s.pipeline.reload)
    (hbuilt : t.built = s.built) (hversion : t.version = s.version)
    (hpublished : t.published = s.published) (hseen : t.pipelineSeen = s.pipelineSeen) :
    Watched configs t := by
  refine ⟨?_, ?_, ?_, ?_, ?_, ?_⟩
  · rw [hversion, hpublished]
    exact h.current
  · rw [hversion]
    exact h.count
  · rw [hseen, hversion]
    exact h.seen
  · rw [hbuilt, hversion]
    exact h.built
  · rw [hreload, hbuilt, hversion]
    exact h.borrowed
  · rw [hseen, hversion, hreload, hbuilt]
    exact h.latest

theorem Watched.step (h : Watched configs s) (hst : DataflowStep fromStr s a t) :
    Watched (configs ++ a.publication) t := by
  cases hst with
  | changed hphase hunseen =>
      show Watched (configs ++ []) _
      rw [List.append_nil]
      refine ⟨h.current, h.count, Nat.le_refl _, h.built, ?_, fun _ => ⟨?_, ?_⟩⟩
      · exact fun _ _ hreload => absurd hreload (by simp [PipelineTaskAt.reload])
      · exact fun hreload => absurd hreload (by simp [PipelineTaskAt.reload])
      · exact fun _ _ hreload => absurd hreload (by simp [PipelineTaskAt.reload])
  | borrow hphase =>
      show Watched (configs ++ []) _
      rw [List.append_nil]
      refine ⟨h.current, h.count, h.seen, h.built, fun version cfg hreload => ?_, fun _ =>
        ⟨fun hreload => absurd hreload (by simp [PipelineTaskAt.reload]), fun version cfg hreload => ?_⟩⟩
      · simp only [PipelineTaskAt.reload, Option.some.injEq, Prod.mk.injEq] at hreload
        rw [← hreload.1, ← hreload.2]
        exact ⟨h.current, h.built, Nat.le_refl _⟩
      · simp only [PipelineTaskAt.reload, Option.some.injEq, Prod.mk.injEq] at hreload
        exact hreload.1.symm
  | rebuild version cfg fs hphase =>
      show Watched (configs ++ []) _
      rw [List.append_nil]
      have hreload : s.pipeline.reload = some (some (version, cfg)) := by rw [hphase]; rfl
      refine ⟨h.current, h.count, h.seen, (h.borrowed version cfg hreload).2.2, ?_, fun hseen =>
        ⟨fun _ => (h.latest hseen).2 version cfg hreload, ?_⟩⟩
      · exact fun _ _ hnone => absurd hnone (by simp [PipelineTaskAt.reload])
      · exact fun _ _ hnone => absurd hnone (by simp [PipelineTaskAt.reload])
  | publish cfg =>
      have hold : ∀ (version : Nat) (cfg' : Config), configs[version]? = some cfg' →
          (configs ++ [cfg])[version]? = some cfg' := by
        intro version cfg' hget
        rw [List.getElem?_append_left (List.getElem?_eq_some_iff.mp hget).1]
        exact hget
      refine ⟨?_, ?_, h.seen.trans (Nat.le_succ _), h.built.trans (Nat.le_succ _), ?_, ?_⟩
      · rw [publication, ← h.count, List.getElem?_concat_length]
      · rw [publication, List.length_append, List.length_singleton, h.count]
      · intro version cfg' hreload
        rcases h.borrowed version cfg' hreload with ⟨hget, hbuilt, hle⟩
        exact ⟨hold version cfg' hget, hbuilt, hle.trans (Nat.le_succ _)⟩
      · -- The value that was just sent has not been seen.
        intro hseen
        have hle := h.seen
        dsimp only at hseen
        omega
  | receive ev rest hphase hlistening hqueue =>
      show Watched (configs ++ []) _
      rw [List.append_nil]
      refine h.quiet ?_ rfl rfl rfl rfl
      rw [hphase, PipelineTaskAt.reload_withEvent]
      rfl
  | forward _ hphase | drop _ hphase | deliver _ hphase | hangUp _ hphase =>
      show Watched (configs ++ []) _
      rw [List.append_nil]
      exact h.quiet (by rw [hphase]; rfl) rfl rfl rfl rfl
  | _ =>
      show Watched (configs ++ []) _
      rw [List.append_nil]
      exact h.quiet rfl rfl rfl rfl rfl

/-! ### Filters -/

/-- The filters are those of the configuration of a version, with the rules as they were
    in the directories at the start or at a rebuild. -/
structure BuiltFrom (fromStr : String → Option RuleSet) (fs : FileSystem) (cfg : Config)
    (acts : List DataflowAction) (built : Nat) (scopeFilter : ScopeFilter glob)
    (fastPath : FastPath) (cfg' : Config) (fs' : FileSystem) : Prop where
  published : (cfg :: acts.flatMap publication)[built]? = some cfg'
  origin : fs' = fs ∨ .rebuild cfg' fs' ∈ acts
  scopeFilter_eq : scopeFilter = ScopeFilter.new glob cfg'.scope
  fastPath_eq : fastPath = FastPath.new fromStr fs' cfg'.fastPath

/-- A version keeps its configuration. -/
theorem BuiltFrom.append {built : Nat} {scopeFilter : ScopeFilter glob} {fastPath : FastPath}
    {cfg' : Config} {fs' : FileSystem}
    (h : BuiltFrom fromStr fs cfg acts built scopeFilter fastPath cfg' fs') (a : DataflowAction) :
    BuiltFrom fromStr fs cfg (acts ++ [a]) built scopeFilter fastPath cfg' fs' := by
  have hlt := (List.getElem?_eq_some_iff.mp h.published).1
  refine ⟨?_, h.origin.imp_right (List.mem_append_left _), h.scopeFilter_eq, h.fastPath_eq⟩
  rw [List.flatMap_append, ← List.cons_append, List.getElem?_append_left hlt]
  exact h.published

/-- The events so far were judged by filters of one configuration each, in order. -/
structure Judged (fromStr : String → Option RuleSet) (fs : FileSystem) (cfg : Config)
    (acts : List DataflowAction) (s : Dataflow glob term) : Prop where
  filters : ∃ cfg' fs', BuiltFrom fromStr fs cfg acts s.built s.scopeFilter s.fastPath cfg' fs'
  sorted : (acts.flatMap generation).Pairwise (fun built built' => built ≤ built')
  past : ∀ built ∈ acts.flatMap generation, built ≤ s.built
  verdicts : ∀ n ev built verdict, .receive n ev built verdict ∈ acts →
    ∃ cfg' fs' scopeFilter fastPath,
      BuiltFrom fromStr fs cfg acts built scopeFilter fastPath cfg' fs' ∧
      verdict = pipelineEvent glob scopeFilter fastPath ev

/-- A step in which nothing is received. -/
theorem Judged.quiet (h : Judged fromStr fs cfg acts s) (hgeneration : a.generation = [])
    (hreceive : ∀ n ev built verdict, a ≠ .receive n ev built verdict) (hbuilt : s.built ≤ t.built)
    (hfilters : ∃ cfg' fs',
      BuiltFrom fromStr fs cfg (acts ++ [a]) t.built t.scopeFilter t.fastPath cfg' fs') :
    Judged fromStr fs cfg (acts ++ [a]) t := by
  have hsame : (acts ++ [a]).flatMap generation = acts.flatMap generation := by
    rw [List.flatMap_append, List.flatMap_singleton, hgeneration, List.append_nil]
  refine ⟨hfilters, ?_, fun built hmem => ?_, fun n ev built verdict hmem => ?_⟩
  · rw [hsame]
    exact h.sorted
  · rw [hsame] at hmem
    exact (h.past built hmem).trans hbuilt
  · rcases List.mem_append.mp hmem with hmem | hmem
    · rcases h.verdicts n ev built verdict hmem with ⟨cfg', fs', scope, fast, hfrom, hverdict⟩
      exact ⟨cfg', fs', scope, fast, hfrom.append a, hverdict⟩
    · exact absurd (List.mem_singleton.mp hmem).symm (hreceive n ev built verdict)

theorem Judged.step (h : Judged fromStr fs cfg acts s)
    (hwatched : Watched (cfg :: acts.flatMap publication) s)
    (hst : DataflowStep fromStr s a t) : Judged fromStr fs cfg (acts ++ [a]) t := by
  rcases h.filters with ⟨cfg', fs', hfrom⟩
  cases hst with
  | receive ev rest hphase hlistening hqueue =>
      refine ⟨⟨cfg', fs', hfrom.append _⟩, ?_, fun built hmem => ?_, fun n ev' built verdict hmem => ?_⟩
      · rw [List.flatMap_append, List.flatMap_singleton, List.pairwise_append]
        refine ⟨h.sorted, List.pairwise_singleton _ _, fun built hbuilt built' hlast => ?_⟩
        rw [List.mem_singleton.mp hlast]
        exact h.past built hbuilt
      · rw [List.flatMap_append, List.flatMap_singleton] at hmem
        rcases List.mem_append.mp hmem with hmem | hmem
        · exact h.past built hmem
        · exact Nat.le_of_eq (List.mem_singleton.mp hmem)
      · rcases List.mem_append.mp hmem with hmem | hmem
        · rcases h.verdicts n ev' built verdict hmem with ⟨cfg', fs', scope, fast, hfrom, hverdict⟩
          exact ⟨cfg', fs', scope, fast, hfrom.append _, hverdict⟩
        · cases List.mem_singleton.mp hmem
          exact ⟨cfg', fs', s.scopeFilter, s.fastPath, hfrom.append _, rfl⟩
  | rebuild version cfg' fs' hphase =>
      -- What was borrowed has been published under its version.
      have hreload : s.pipeline.reload = some (some (version, cfg')) := by rw [hphase]; rfl
      rcases hwatched.borrowed version cfg' hreload with ⟨hget, hle, _⟩
      refine h.quiet rfl (fun _ _ _ _ heq => by cases heq) hle ⟨cfg', fs', ?_⟩
      refine ⟨?_, .inr (List.mem_append_right _ (List.mem_singleton_self _)), rfl, rfl⟩
      rw [List.flatMap_append, List.flatMap_singleton, show publication (.rebuild cfg' fs') = [] from rfl,
        List.append_nil]
      exact hget
  | _ =>
      exact h.quiet rfl (fun _ _ _ _ heq => by cases heq) (Nat.le_refl _) ⟨cfg', fs', hfrom.append _⟩

/-! ### Runs -/

section Runs

variable {slowPath : SlowPath} {st : term.State}

theorem watched_of_run
    (hrun : Run (DataflowStep fromStr) (init fromStr fs cfg slowPath st : Dataflow glob term) acts s) :
    Watched (cfg :: acts.flatMap publication) s := by
  refine hrun.invariant (I := fun acts s => Watched (cfg :: acts.flatMap publication) s)
    (watched_init fromStr fs cfg slowPath st) (fun acts t a u _ h hst => ?_)
  rw [List.flatMap_append, List.flatMap_singleton, ← List.cons_append]
  exact h.step hst

theorem judged_of_run
    (hrun : Run (DataflowStep fromStr) (init fromStr fs cfg slowPath st : Dataflow glob term) acts s) :
    Judged fromStr fs cfg acts s := by
  refine hrun.invariant ?_ (fun acts t a u hbefore h hst => h.step (watched_of_run hbefore) hst)
  refine ⟨⟨cfg, fs, rfl, .inl rfl, rfl, rfl⟩, List.Pairwise.nil, ?_, ?_⟩
  · exact fun _ hmem => absurd hmem List.not_mem_nil
  · exact fun _ _ _ _ hmem => absurd hmem List.not_mem_nil

/-- A pipeline that is not reloading and has seen everything uses what was published last. -/
theorem newest_of_run
    (hrun : Run (DataflowStep fromStr) (init fromStr fs cfg slowPath st : Dataflow glob term) acts s)
    (hidle : s.pipeline.reload = none) (hseen : s.pipelineSeen = s.version) :
    ∃ fs', s.scopeFilter = ScopeFilter.new glob s.published.scope ∧
      s.fastPath = FastPath.new fromStr fs' s.published.fastPath := by
  have hwatched := watched_of_run hrun
  rcases (judged_of_run hrun).filters with ⟨cfg', fs', hfrom⟩
  have hlast := hfrom.published
  rw [(hwatched.latest hseen).1 hidle, hwatched.current, Option.some.injEq] at hlast
  rw [hlast]
  exact ⟨fs', hfrom.scopeFilter_eq, hfrom.fastPath_eq⟩

/-- Every event is judged by the two filters of one published configuration, those of an
    event are never older than those of an event before it, and a pipeline that is not
    reloading and has seen everything uses what was published last. -/
theorem generations_of_run
    (hrun : Run (DataflowStep fromStr) (init fromStr fs cfg slowPath st : Dataflow glob term) acts s) :
    (∀ n ev built verdict, .receive n ev built verdict ∈ acts → ∃ cfg' fs',
        (cfg :: acts.flatMap publication)[built]? = some cfg' ∧
        (fs' = fs ∨ .rebuild cfg' fs' ∈ acts) ∧
        verdict = pipelineEvent glob (ScopeFilter.new glob cfg'.scope)
          (FastPath.new fromStr fs' cfg'.fastPath) ev) ∧
      (acts.flatMap generation).Pairwise (fun built built' => built ≤ built') ∧
      (s.pipeline.reload = none → s.pipelineSeen = s.version →
        ∃ fs', s.scopeFilter = ScopeFilter.new glob s.published.scope ∧
          s.fastPath = FastPath.new fromStr fs' s.published.fastPath) := by
  have hjudged := judged_of_run hrun
  refine ⟨fun n ev built verdict hmem => ?_, hjudged.sorted, newest_of_run hrun⟩
  rcases hjudged.verdicts n ev built verdict hmem with ⟨cfg', fs', scope, fast, hfrom, hverdict⟩
  refine ⟨cfg', fs', hfrom.published, hfrom.origin, ?_⟩
  rw [hverdict, hfrom.scopeFilter_eq, hfrom.fastPath_eq]

end Runs

end Dataflow

/-- A configuration that monitors one program. -/
def narrowed : Config := { passAll with scope := ⟨["nc"], [], [], [], []⟩ }

/-- An `ls` after a reload that leaves it out of scope. -/
def filteredLs : List DataflowAction :=
  [.publish narrowed, .changed, .borrow, .rebuild narrowed (fun _ => none),
    .emit (.plainExec "ls"), .enter, .receive 0 (.plainExec "ls") 1 none]

theorem pipelineEvent_narrowed :
    pipelineEvent GlobCrate.literal (ScopeFilter.new GlobCrate.literal narrowed.scope)
      (FastPath.new (fun _ => none) (fun _ => none) narrowed.fastPath) (.plainExec "ls") = none := by
  decide

theorem exists_run_filteredLs :
    ∃ s, Run (DataflowStep (fun _ => none)) quietDaemon filteredLs s := by
  have hrun : Run (DataflowStep (fun _ => none)) quietDaemon [] _ := .nil
  have hrun := hrun.snoc (.publish narrowed)
  have hrun := hrun.snoc (.changed rfl (Nat.zero_ne_one))
  have hrun := hrun.snoc (.borrow rfl)
  have hrun := hrun.snoc (.rebuild _ _ (fun _ => none) rfl)
  have hrun := hrun.snoc (.emit (.plainExec "ls") rfl)
  have hrun := hrun.snoc (.enter _ rfl ⟨rfl, PipelineTaskAt.noConfusion⟩
    (Channel.hasRoom_of_empty (by decide) rfl))
  exact ⟨_, hrun.snoc (.receive_of rfl rfl rfl pipelineEvent_narrowed)⟩

/-- The `ls` is judged by a configuration that was published. -/
theorem filteredLs_judged :
    ∃ s, Run (DataflowStep (fun _ => none)) quietDaemon filteredLs s ∧
      ∃ cfg' fs', (passAll :: filteredLs.flatMap publication)[1]? = some cfg' ∧
        (fs' = (fun _ => none) ∨ .rebuild cfg' fs' ∈ filteredLs) ∧
        none = pipelineEvent GlobCrate.literal (ScopeFilter.new GlobCrate.literal cfg'.scope)
          (FastPath.new (fun _ => none) fs' cfg'.fastPath) (.plainExec "ls") := by
  rcases exists_run_filteredLs with ⟨s, hrun⟩
  exact ⟨s, hrun, (Dataflow.generations_of_run hrun).1 0 (.plainExec "ls") 1 none
    (by simp only [filteredLs, List.mem_cons, List.not_mem_nil, or_false, or_true])⟩

end VectorGuard
