import VectorGuard.Core.Handover
import VectorGuard.Lib.Transition
import VectorGuard.Theory.Attempts

/-!
# Disabled Blocking

What the kernel still blocks once the fast path is switched off.

The flag is a field of the fast path that `evaluate` looks at. The enforcer is
handed the rules by an accessor that does not, at start-up and at every reload, so
switching the fast path off does not take one key out of the maps. What the kernel
blocks then is what it blocks otherwise: the keys of the directory's block rules
that found room, as far as a process can present them. Nothing is blocked exactly
if there are none of these, as with the built-in rules, whose block rule is about
paths only.

## Main definitions

* `BlocksNothing`: No call is blocked by the handlers or the hook.
* `directoryRules`: The rules of the directory of a configuration.
* `NoUsableKey`: The block rules of a list install no key that a call can have.
* `Handed`: The invariant of the handover.

## Theorems

* `blocksNothing_iff`: Nothing is blocked when no key of an attempt is held.
* `handed_run`: The maps hold what the last load left of the handed rules.
* `blocksNothing_disabled_iff`: What a disabled fast path still blocks.
-/

namespace VectorGuard

open Transition

/-- The handlers block no call and the LSM hook denies none. -/
def BlocksNothing (maps : BlockMaps) : Prop := ∀ call : Syscall, ¬ call.kernelBlocks maps

/-- The rules of the directory a configuration names, or the built-in ones. -/
def directoryRules (fromStr : String → Option RuleSet) (fs : FileSystem) (cfg : FastPathConfig) :
    List Rule :=
  (RuleSet.loadDir fromStr (fs cfg.rulesPath)).rules

/-- No key of a rule list that finds room in its map is one that a call can have:
    no process key is the name of a task, and there are no ports and no users,
    unless the process keys overflow their map and end the load before those. -/
structure NoUsableKey (rules : List Rule) : Prop where
  comms : ∀ comm : TaskComm, comm.buf ∉ firstKeys (computeBlockKeys rules).comms
  others : Fits (computeBlockKeys rules).comms →
    (computeBlockKeys rules).ports = [] ∧ (computeBlockKeys rules).uids = []

/-- Nothing is blocked when no key that a call can have is held. -/
theorem blocksNothing_iff (maps : BlockMaps) :
    BlocksNothing maps ↔
      (∀ comm : TaskComm, comm.buf ∉ maps.comms) ∧ (∀ port, port ∉ maps.ports) ∧
        ∀ uid, uid ∉ maps.uids := by
  have hattempt : BlocksNothing maps ↔ ∀ (a : Attempt), ∀ k ∈ a.keys, ¬ maps.holds k := by
    unfold BlocksNothing
    simp only [kernelBlocks_iff]
    constructor
    · intro h a k hk hholds
      rcases a.exists_call with ⟨call, hcall⟩
      exact h call ⟨a, hcall, k, hk, hholds⟩
    · intro h call hblocked
      rcases hblocked with ⟨a, _, k, hk, hholds⟩
      exact h a k hk hholds
  rw [hattempt]
  constructor
  · -- Every key is one of some attempt.
    intro h
    refine ⟨fun comm => ?_, fun port => ?_, fun uid => ?_⟩
    · exact h (.exec comm 0) (.comm comm.buf) (by simp [Attempt.keys])
    · exact h (.connect TaskComm.empty 0 port) (.port port) (by simp [Attempt.keys])
    · exact h (.exec TaskComm.empty uid) (.uid uid) (by simp [Attempt.keys])
  · intro h a k hk
    rcases h with ⟨hcomms, hports, huids⟩
    cases a with
    | exec comm uid =>
        simp only [Attempt.keys, List.mem_cons, List.not_mem_nil, or_false] at hk
        rcases hk with rfl | rfl
        · exact hcomms comm
        · exact huids uid
    | connect comm uid port =>
        rw [List.mem_singleton.mp hk]
        exact hports port

theorem heldFrom_isSome_iff {K : Type} [DecidableEq K] (ks : List K) (k : K) :
    (heldFrom ks k).isSome = true ↔ k ∈ firstKeys ks := by
  unfold heldFrom
  by_cases hk : k ∈ firstKeys ks
  · simp only [hk, if_true, Option.isSome_some]
  · simp only [hk, if_false, Option.isSome_none, Bool.false_eq_true]

theorem firstKeys_eq_nil_iff {K : Type} [DecidableEq K] (ks : List K) :
    (∀ k, k ∉ firstKeys ks) ↔ ks = [] := by
  constructor
  · intro h
    cases ks with
    | nil => rfl
    | cons k ks =>
        -- The first key always finds room.
        refine absurd ?_ (h k)
        unfold firstKeys
        rw [List.eraseDups_cons, List.take_succ_cons]
        exact List.mem_cons_self
  · intro h k hk
    rw [h] at hk
    unfold firstKeys at hk
    rw [List.eraseDups_nil, List.take_nil] at hk
    exact List.not_mem_nil hk

/-- What a load leaves blocks nothing when the rules install no key that a call
    can have. -/
theorem blocksNothing_leftovers_iff (maps : BlockMaps) (rules : List Rule)
    (h : maps.HoldsLeftovers (computeBlockKeys rules)) :
    BlocksNothing maps ↔ NoUsableKey rules := by
  rcases h with ⟨hcomms, hports, huids⟩
  have hcomm : ∀ key, key ∈ maps.comms ↔ key ∈ firstKeys (computeBlockKeys rules).comms := by
    intro key
    rw [← BoundedMap.isSome_get?, hcomms, heldFrom_isSome_iff]
  have hport : Fits (computeBlockKeys rules).comms →
      ((∀ port, port ∉ maps.ports) ↔ (computeBlockKeys rules).ports = []) := by
    intro hfit
    simp only [← BoundedMap.isSome_get?, hports, if_pos hfit, heldFrom_isSome_iff]
    exact firstKeys_eq_nil_iff _
  have huid : Fits (computeBlockKeys rules).comms → Fits (computeBlockKeys rules).ports →
      ((∀ uid, uid ∉ maps.uids) ↔ (computeBlockKeys rules).uids = []) := by
    intro hfit hfit'
    simp only [← BoundedMap.isSome_get?, huids, if_pos (And.intro hfit hfit'), heldFrom_isSome_iff]
    exact firstKeys_eq_nil_iff _
  rw [blocksNothing_iff]
  simp only [hcomm]
  constructor
  · intro h
    refine ⟨h.1, fun hfit => ?_⟩
    have hnil := (hport hfit).mp h.2.1
    -- A list of no ports fits, so the users have had their turn.
    have hfit' : Fits (computeBlockKeys rules).ports := by
      rw [hnil]
      decide
    exact ⟨hnil, (huid hfit hfit').mp h.2.2⟩
  · intro h
    by_cases hfit : Fits (computeBlockKeys rules).comms
    · rcases h.others hfit with ⟨hnil, hnil'⟩
      have hfit' : Fits (computeBlockKeys rules).ports := by
        rw [hnil]
        decide
      exact ⟨h.comms, (hport hfit).mpr hnil, (huid hfit hfit').mpr hnil'⟩
    · -- The load ended before the ports.
      refine ⟨h.comms, fun port => ?_, fun uid => ?_⟩
      · rw [← BoundedMap.isSome_get?, hports, if_neg hfit]
        simp only [Option.isSome_none, Bool.false_eq_true, not_false_eq_true]
      · rw [← BoundedMap.isSome_get?, huids, if_neg (fun hboth => hfit hboth.1)]
        simp only [Option.isSome_none, Bool.false_eq_true, not_false_eq_true]

variable {fromStr : String → Option RuleSet}

/-- The maps hold what a load of the handed rules leaves. -/
def Handed (s : Handover fromStr) : Prop :=
  ∀ fp, s.handed = some fp → s.maps.HoldsLeftovers (computeBlockKeys fp.fastPath.rules)

/-- Only a load touches the maps, and it hands over the rules it loads. -/
theorem handed_step (s s' : Handover fromStr) (act : HandoverAction) (h : Handed s)
    (hstep : HandoverStep s act s') : Handed s' := by
  cases hstep with
  | enforcerLoad tmpFp hphase =>
      intro fp hfp
      rw [← Option.some.inj hfp]
      exact holdsLeftovers_loadRules s.maps tmpFp.fastPath.rules
  | reloadLoad tmpFp hbusy hfp' hphase =>
      intro fp hfp
      rw [← Option.some.inj hfp]
      exact holdsLeftovers_loadRules s.maps tmpFp.fastPath.rules
  | enforcerBuild fs hphase => exact h
  | enforcerPublish hphase => exact h
  | pipelineStart fs hstart => exact h
  | reloadBuild cfg fs hstart hidle => exact h
  | reloadSkip hbusy hphase => exact h

theorem handed_run (cfg : FastPathConfig) (maps : BlockMaps) (acts : List HandoverAction)
    (s : Handover fromStr) (h : Run HandoverStep (Handover.init fromStr cfg maps) acts s) :
    Handed s := by
  refine h.invariant (I := fun _ s => Handed s) ?_ (fun _ t _ u _ ih hstep => ?_)
  · intro fp hfp
    exact absurd hfp (by simp [Handover.init])
  · exact handed_step t u _ ih hstep

/-- In every state of every run in which the current configuration switches the
    fast path off and the enforcer was handed that configuration, the kernel
    blocks nothing exactly when the block rules of the directory install no key
    that a call can have. -/
theorem blocksNothing_disabled_iff (cfg : FastPathConfig) (maps : BlockMaps)
    (acts : List HandoverAction) (s : Handover fromStr)
    (hrun : Run HandoverStep (Handover.init fromStr cfg maps) acts s)
    (handed : BuiltFastPath fromStr) (hoff : s.SwitchedOff handed) :
    BlocksNothing s.maps ↔ NoUsableKey (directoryRules fromStr handed.fs handed.cfg) := by
  have hrules : handed.fastPath.rules = directoryRules fromStr handed.fs handed.cfg := by
    rw [handed.eq_new]
    rfl
  rw [← hrules]
  exact blocksNothing_leftovers_iff s.maps _ (handed_run cfg maps acts s hrun handed hoff.handed_eq)

/-- The state after an undisturbed start-up. -/
def startedUp (fromStr : String → Option RuleSet) (cfg : FastPathConfig) (fs : FileSystem) :
    Handover fromStr where
  startCfg := cfg
  enforcer := .published
  pipeline := some (BuiltFastPath.build fromStr cfg fs)
  reloading := false
  maps := (loadRules BlockMaps.empty (directoryRules fromStr fs cfg)).1
  handed := some (BuiltFastPath.build fromStr cfg fs)

theorem run_startedUp (cfg : FastPathConfig) (fs : FileSystem) :
    Run HandoverStep (Handover.init fromStr cfg BlockMaps.empty)
      [.enforcerBuild fs, .enforcerLoad, .enforcerPublish, .pipelineStart fs]
      (startedUp fromStr cfg fs) := by
  have hbuild := Run.nil.snoc (HandoverStep.enforcerBuild
    (s := Handover.init fromStr cfg BlockMaps.empty) fs rfl)
  have hload := hbuild.snoc (HandoverStep.enforcerLoad _ rfl)
  have hpublish := hload.snoc (HandoverStep.enforcerPublish rfl)
  exact hpublish.snoc (HandoverStep.pipelineStart fs rfl)

/-- The fast path table of a deployment that has it off. -/
def switchedOff : FastPathConfig := { FastPathConfig.shipped with enabled := false }

theorem switchedOff_startedUp (fs : FileSystem) :
    (startedUp fromStr switchedOff fs).SwitchedOff (BuiltFastPath.build fromStr switchedOff fs) :=
  ⟨rfl, ⟨_, rfl, rfl⟩, rfl⟩

/-- The one built-in rule that blocks is about paths. -/
theorem noUsableKey_builtinRules : NoUsableKey builtinRules := by
  have hkeys : computeBlockKeys builtinRules = ⟨[], [], []⟩ := by decide
  refine ⟨fun comm => ?_, fun _ => ?_⟩
  · rw [hkeys]
    exact (firstKeys_eq_nil_iff _).mpr rfl comm.buf
  · rw [hkeys]
    exact ⟨rfl, rfl⟩

/-- Without a rules directory the built-in rules are handed over, and they block
    nothing. -/
theorem builtin_blocksNothing :
    BlocksNothing (startedUp (fun _ => none) switchedOff (fun _ => none)).maps := by
  refine (blocksNothing_disabled_iff switchedOff BlockMaps.empty _ _
    (run_startedUp switchedOff (fun _ => none)) _ (switchedOff_startedUp _)).mpr ?_
  exact noUsableKey_builtinRules

/-- A directory with one file. -/
def oneFile : FileSystem := fun _ => some [some ⟨bytes "root.toml", some ""⟩]

/-- With the fast path off from the start, a rule on user 0 in the directory keeps
    every program of that user from being executed. -/
theorem rootRule_blocks_switchedOff :
    Run HandoverStep (Handover.init (fun _ => some ⟨[rootRule]⟩) switchedOff BlockMaps.empty)
        [.enforcerBuild oneFile, .enforcerLoad, .enforcerPublish, .pipelineStart oneFile]
        (startedUp (fun _ => some ⟨[rootRule]⟩) switchedOff oneFile) ∧
      (startedUp (fun _ => some ⟨[rootRule]⟩) switchedOff oneFile).SwitchedOff
        (BuiltFastPath.build _ switchedOff oneFile) ∧
      ¬ BlocksNothing (startedUp (fun _ => some ⟨[rootRule]⟩) switchedOff oneFile).maps := by
  refine ⟨run_startedUp switchedOff oneFile, switchedOff_startedUp oneFile, fun h => ?_⟩
  have hmaps : (startedUp (fun _ => some ⟨[rootRule]⟩) switchedOff oneFile).maps = rootMaps := by
    have hrules : directoryRules (fun _ => some ⟨[rootRule]⟩) oneFile switchedOff = [rootRule] := by
      decide
    unfold startedUp rootMaps
    rw [hrules]
  rw [hmaps] at h
  exact ((blocksNothing_iff rootMaps).mp h).2.2 0 (by decide)

end VectorGuard
