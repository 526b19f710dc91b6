import VectorGuard.Theory.Agreement

/-!
# Path Rules

What the two conditions on paths mean and what they enforce.

The condition on the executed path is tested against the name of the process,
and at the time of an `execve` that is the caller's. The executed path itself
is captured by the handler and decoded, but the decoder has no field for it, so
the condition and the path it is about meet only by coincidence.

Neither condition contributes a key to the kernel maps, and the open handler
never signals. A path rule is therefore reported and not enforced, except on
the `execve` of a caller that some block rule names as well.

## Main definitions

* `execPathRule`: A rule on executed paths and, optionally, on the process.
* `MatchesExecutedPath`: A rule matches by the path that is executed.
* `DecidedByPath`: A rule decides a call through a path condition.

## Theorems

* `matchesEvent_execPathRule`: What the condition on executed paths tests.
* `matchesExecutedPath_iff`: When a rule matches by the path that is executed.
* `pathRule_signal_iff`: When a path rule kills.
-/

namespace VectorGuard

/-! ## What a path rule matches -/

/-- A rule whose conditions are a list of executed paths and a list of process
    globs. -/
def execPathRule (name : String) (action : RuleAction) (paths globs : List String) : Rule :=
  { Rule.bare name action with
    matchProcess := globs
    matchExecPath := paths }

@[simp] theorem execPathRule_matchProcess (name : String) (action : RuleAction)
    (paths globs : List String) : (execPathRule name action paths globs).matchProcess = globs := rfl

@[simp] theorem execPathRule_matchExecPath (name : String) (action : RuleAction)
    (paths globs : List String) : (execPathRule name action paths globs).matchExecPath = paths := rfl

/-- The rule matches the event of an `execve` by the path that is executed and
    by the name of the process that executes it. -/
def MatchesExecutedPath (glob : GlobCrate) (maps : BlockMaps) (inv : Invocation) (path : String)
    (r : Rule) : Prop :=
  ∃ raw, (tryHandleExec maps inv).submitted = some raw ∧
    Terminated.read 0 raw.payload.exec.filename.toList = bytes path ∧
    ∀ id, ∃ ev, parseRawEvent id sizeOfRawEvent raw = .ok ev ∧
      (r.matchesEvent glob ev = true ↔
        (∃ p ∈ r.matchExecPath, startsWith path p = true) ∧
          (r.matchProcess = [] ∨ ∃ g ∈ r.matchProcess, glob.hit g inv.comm.str = true))

/-- The rule tests the name of the caller twice: against the globs and as if it
    were the executed path. -/
theorem matchesEvent_execPathRule (glob : GlobCrate) (maps : BlockMaps) (inv : Invocation)
    (slot : RawEvent) (id : UInt64) (name : String) (action : RuleAction)
    (paths globs : List String) :
    (execPathRule name action paths globs).matchesEvent glob
        (decoded id (execRecord maps inv slot)) = true ↔
      (globs = [] ∨ ∃ g ∈ globs, glob.hit g inv.comm.str = true) ∧
        (paths = [] ∨ ∃ p ∈ paths, startsWith inv.comm.str p = true) := by
  rw [matchesEvent_decoded glob maps (.exec inv) (.exec inv.comm inv.uid) slot _ id rfl rfl]
  unfold Rule.covers Rule.coversCaller execPathRule Rule.bare
  simp only [Bool.and_true, List.isEmpty_nil, Bool.and_eq_true, Bool.or_eq_true,
    List.isEmpty_iff, List.any_eq_true]

/-- A rule on executed paths matches by the path that is executed exactly when
    its globs keep it from matching at all, or the name of the caller and the
    executed path start alike as far as the rule's prefixes can tell. -/
theorem matchesExecutedPath_iff (glob : GlobCrate) (maps : BlockMaps) (inv : Invocation)
    (slot : RawEvent) (hroom : inv.reserve = some slot) (path : String) (hnul : 0 ∉ bytes path)
    (hlen : (bytes path).length < 256) (ptr : UInt64) (hptr : inv.pointerAt 16 = some ptr)
    (hread : inv.readUserStr ptr 256 = some ⟨bytes path, hnul, hlen⟩) (name : String)
    (action : RuleAction) (paths globs : List String) :
    MatchesExecutedPath glob maps inv path (execPathRule name action paths globs) ↔
      (globs ≠ [] ∧ ∀ g ∈ globs, glob.hit g inv.comm.str = false) ∨
        (paths ≠ [] ∧ ((∃ p ∈ paths, startsWith inv.comm.str p = true) ↔
          ∃ p ∈ paths, startsWith path p = true)) := by
  have hsub : (tryHandleExec maps inv).submitted = some (execRecord maps inv slot) := by
    unfold tryHandleExec
    rw [hroom]
  have hfile := read_filename_execRecord maps inv slot ptr _ hptr hread
  have hmatch := fun id => matchesEvent_execPathRule glob maps inv slot id name action paths globs
  -- Where the globs keep the rule from matching, the path has no say.
  have hnohit : (globs ≠ [] ∧ ∀ g ∈ globs, glob.hit g inv.comm.str = false) ↔
      ¬ (globs = [] ∨ ∃ g ∈ globs, glob.hit g inv.comm.str = true) := by
    simp only [not_or, not_exists, not_and, Bool.not_eq_true]
  unfold MatchesExecutedPath
  rw [hsub]
  simp only [Option.some.injEq, exists_eq_left', hfile, true_and, parseRawEvent_eq, Except.ok.injEq,
    hmatch, forall_const, hnohit, execPathRule_matchProcess, execPathRule_matchExecPath]
  by_cases hglobs : globs = [] ∨ ∃ g ∈ globs, glob.hit g inv.comm.str = true
  · by_cases hpaths : paths = []
    · -- Without a path condition the rule matches, and no prefix is there to hold.
      subst hpaths
      simp only [hglobs, true_or, and_self, List.not_mem_nil, false_and, exists_false, not_true, ne_eq,
        iff_false, or_self]
    · simp only [hglobs, hpaths, false_or, true_and, and_true, not_true, not_false_eq_true, ne_eq]
  · simp only [hglobs, false_and, and_false, not_false_eq_true, true_or]

def sh : TaskComm := ⟨bytes "sh", by decide, by decide⟩

/-- A shell that executes the given path. -/
def shExec (path : List UInt8) (hpath : 0 ∉ path) : Invocation :=
  (Invocation.bare sh 1000).pointing 16 path hpath

/-- Neither the shell's name nor the path it executes starts as the rule
    asks. -/
theorem matchesExecutedPath_unrelated :
    MatchesExecutedPath GlobCrate.literal BlockMaps.empty
      (shExec (bytes "/usr/bin/env") (by decide)) "/usr/bin/env"
      (execPathRule "alert-curl" .alert ["/usr/bin/curl"] []) := by
  refine (matchesExecutedPath_iff GlobCrate.literal BlockMaps.empty
    (shExec (bytes "/usr/bin/env") (by decide)) RawEvent.zeroed rfl "/usr/bin/env" (by decide)
    (by decide) 4096 (by decide) rfl "alert-curl" .alert ["/usr/bin/curl"] []).mpr ?_
  exact Or.inr ⟨List.cons_ne_nil _ _, by decide⟩

/-- A rule on `/usr/bin/curl` does not see a shell execute `/usr/bin/curl`. -/
theorem curl_not_matchesExecutedPath :
    ¬ MatchesExecutedPath GlobCrate.literal BlockMaps.empty
      (shExec (bytes "/usr/bin/curl") (by decide)) "/usr/bin/curl"
      (execPathRule "alert-curl" .alert ["/usr/bin/curl"] []) := by
  intro h
  rcases h with ⟨raw, hsub, _, hmatch⟩
  have hraw : raw = execRecord BlockMaps.empty (shExec (bytes "/usr/bin/curl") (by decide))
      RawEvent.zeroed := (Option.some.inj hsub).symm
  rcases hmatch 0 with ⟨ev, hparse, hiff⟩
  rw [hraw, parseRawEvent_eq, Except.ok.injEq] at hparse
  subst hparse
  rw [matchesEvent_execPathRule] at hiff
  exact absurd hiff (by decide)

/-! ## What a path rule enforces -/

/-- The rule decides the call through a condition on a path. -/
def DecidedByPath (r : Rule) : Syscall → Prop
  | .exec _ => r.matchExecPath ≠ []
  | .fileOpen _ => r.matchPathPrefix ≠ []
  | .netConnect _ => False

/-- A block rule on a path kills exactly the `execve` calls whose caller some
    block rule also names. It never kills an `openat`. -/
theorem pathRule_signal_iff (glob : GlobCrate) (prior maps : BlockMaps) (rules : List Rule)
    (hload : loadRules prior rules = (maps, .ok ())) (call : Syscall) (raw : RawEvent)
    (hsub : (call.handle maps).submitted = some raw) (id : UInt64) (r : Rule)
    (hfirst : rules.find? (fun r => r.matchesEvent glob (decoded id raw)) = some r)
    (hblock : r.action = .block) (hpath : DecidedByPath r call) :
    ((∃ ev, parseRawEvent id sizeOfRawEvent raw = .ok ev ∧
          RuleSet.evaluate glob ⟨rules⟩ ev = some (.blocked, r.name)) ∧
        (call.handle maps).signal = some 9) ↔
      ∃ inv, call = .exec inv ∧ Named rules (.exec inv.comm inv.uid) := by
  have hverdict : ∃ ev, parseRawEvent id sizeOfRawEvent raw = .ok ev ∧
      RuleSet.evaluate glob ⟨rules⟩ ev = some (.blocked, r.name) := by
    refine ⟨decoded id raw, parseRawEvent_eq id raw, ?_⟩
    rw [evaluate_eq_some]
    exact ⟨r, hfirst, by rw [hblock]; rfl, rfl⟩
  rcases (handle_submitted_iff maps call raw).mp hsub with ⟨slot, hroom, _⟩
  have hexact := holdsExactly_of_loadRules prior maps rules hload
  rw [handle_signal_of_reserve maps call slot hroom, kernelBlocks_iff_named maps rules hexact call]
  simp only [hverdict, true_and]
  cases call with
  | exec inv =>
      -- The caller's keys decide, whatever path the rule is about.
      simp only [Syscall.attempt, Option.some.injEq, exists_eq_left', Syscall.exec.injEq]
  | fileOpen inv =>
      -- There is no key to look up for a path.
      simp only [Syscall.attempt, reduceCtorEq, false_and, exists_false]
  | netConnect inv =>
      exact hpath.elim

/-- A rule on a caller that executes a program under the caller's own name. -/
def shellRule : Rule :=
  { Rule.bare "block-shell" .block with
    matchProcess := ["sh"]
    matchExecPath := ["sh"] }

/-- A rule on the caller and the executed path kills a shell that starts
    another program. -/
theorem shellRule_kills :
    (∃ ev, parseRawEvent 0 sizeOfRawEvent (execRecord (loadRules BlockMaps.empty [shellRule]).1
          (Invocation.bare sh 1000) RawEvent.zeroed) = .ok ev ∧
        RuleSet.evaluate GlobCrate.literal ⟨[shellRule]⟩ ev = some (.blocked, "block-shell")) ∧
      ((Syscall.exec (Invocation.bare sh 1000)).handle
        (loadRules BlockMaps.empty [shellRule]).1).signal = some 9 := by
  have hload : loadRules BlockMaps.empty [shellRule]
      = ((loadRules BlockMaps.empty [shellRule]).1, .ok ()) :=
    loadRules_of_fit _ _ (by decide)
  have hmatch : shellRule.matchesEvent GlobCrate.literal (decoded 0 (execRecord
      (loadRules BlockMaps.empty [shellRule]).1 (Invocation.bare sh 1000) RawEvent.zeroed))
        = true := by
    rw [matchesEvent_decoded GlobCrate.literal _ (.exec (Invocation.bare sh 1000))
      (.exec sh 1000) RawEvent.zeroed _ 0 rfl rfl]
    decide
  refine (pathRule_signal_iff GlobCrate.literal BlockMaps.empty _ [shellRule] hload
    (.exec (Invocation.bare sh 1000)) _ rfl 0 shellRule (List.find?_cons_of_pos hmatch) rfl
    (List.cons_ne_nil _ _)).mpr ?_
  refine ⟨_, rfl, shellRule, List.mem_singleton_self _, rfl, .comm sh.buf, List.mem_cons_self, ?_⟩
  exact (mem_blockKeys_comm shellRule _).mpr List.mem_cons_self

/-- A rule on opened paths only matches a file event by its path. -/
theorem matchesEvent_of_path (glob : GlobCrate) (name : String) (action : RuleAction)
    (prefixes : List String) (ev : NormalizedEvent) (path : String) (flags : FileFlags)
    (htype : ev.eventType = .fileAccess path flags) :
    Rule.matchesEvent glob { Rule.bare name action with matchPathPrefix := prefixes } ev
      = (prefixes.isEmpty || prefixes.any (fun p => startsWith path p)) := by
  unfold Rule.matchesEvent Rule.processFilter Rule.uidFilter Rule.portFilter Rule.pathFilter
    Rule.execPathFilter Rule.bare
  rw [htype]
  simp only [List.isEmpty_nil, Bool.true_or, Bool.and_true, Bool.true_and]

/-- The call that opens the shadow file. -/
def openShadow : Invocation :=
  (Invocation.bare sh 1000).pointing 24 (bytes "/etc/shadow") (by decide)

/-- The first built-in rule reports an open of the shadow file as blocked, and
    nobody is killed. -/
theorem builtinRules_shadow_not_killed :
    ∃ raw, ((Syscall.fileOpen openShadow).handle
          (loadRules BlockMaps.empty builtinRules).1).submitted = some raw ∧
      RuleSet.evaluate GlobCrate.literal ⟨builtinRules⟩ (decoded 0 raw)
        = some (.blocked, "block-shadow-access") ∧
      ((Syscall.fileOpen openShadow).handle
        (loadRules BlockMaps.empty builtinRules).1).signal = none := by
  refine ⟨_, rfl, ?_, rfl⟩
  rcases decoded_fileOpenRecord openShadow RawEvent.zeroed 0 with ⟨_, _, ⟨flags, htype⟩, _⟩
  rw [read_path_fileOpenRecord openShadow RawEvent.zeroed 4096
    ⟨bytes "/etc/shadow", by decide⟩ (by decide) rfl, fromUtf8OrInvalid_bytes] at htype
  rw [evaluate_eq_some]
  refine ⟨_, List.find?_cons_of_pos ?_, rfl, rfl⟩
  rw [matchesEvent_of_path _ _ _ _ _ "/etc/shadow" flags htype]
  decide

end VectorGuard
