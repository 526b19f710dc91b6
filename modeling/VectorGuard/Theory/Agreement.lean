import VectorGuard.Core.FastPath
import VectorGuard.Core.Incident
import VectorGuard.Theory.Attempts

/-!
# Kernel and User Space

Where the two enforcement levels agree on one rule list, and where they do not.

The kernel looks up keys without the conditions they came with and without the
order of the rules. So it blocks more than the rules do: a rule that names the
caller but also asks for a port blocks every `execve` of that caller, and a
rule that an earlier one shields blocks all the same.

User space then evaluates the record of a blocked call from scratch. The flag
the kernel set is decoded into the event and overwritten by the evaluation, so
a block that only the kernel sees is filed under the verdict of the rules.

## Main definitions

* `EvaluatesToBlocked`: Every record of a call evaluates to blocked.
* `KeptAsIncident`: An event leaves the fast path as a blocked incident.

## Theorems

* `handle_submitted_iff`: What a handler submits.
* `kernelBlocks_imp_evaluatesToBlocked_iff`: When the kernel blocks only what
  the rules block.
* `kernelBlock_keptAsIncident_iff`: When a kernel block reaches the incident
  log.
-/

namespace VectorGuard

/-- A handler submits the record it leaves in the slot it was given. -/
theorem handle_submitted_iff (maps : BlockMaps) (call : Syscall) (raw : RawEvent) :
    (call.handle maps).submitted = some raw ↔
      ∃ slot, call.inv.reserve = some slot ∧ call.record maps slot = some raw := by
  cases call with
  | exec inv =>
      simp only [Syscall.handle, tryHandleExec, Syscall.inv, Syscall.record, Option.some.injEq]
      cases inv.reserve with
      | none =>
          simp only [Outcome.skipped, reduceCtorEq, false_and, exists_false]
      | some slot =>
          simp only [Option.some.injEq, exists_eq_left']
  | fileOpen inv =>
      simp only [Syscall.handle, tryHandleFileOpen, Syscall.inv, Syscall.record, Option.some.injEq]
      cases inv.reserve with
      | none =>
          simp only [Outcome.skipped, reduceCtorEq, false_and, exists_false]
      | some slot =>
          simp only [Option.some.injEq, exists_eq_left']
  | netConnect inv =>
      -- Without a target the handler returns before it asks for a slot.
      simp only [Syscall.handle, tryHandleNetConnect, Syscall.inv, Syscall.record]
      cases connectTarget inv with
      | none =>
          simp only [Outcome.skipped, Option.map_none, reduceCtorEq, and_false, exists_false]
      | some target =>
          simp only [Option.map_some, Option.some.injEq]
          cases inv.reserve with
          | none =>
              simp only [Outcome.skipped, reduceCtorEq, false_and, exists_false]
          | some slot =>
              simp only [Option.some.injEq, exists_eq_left']

/-- A handler that was given a slot signals exactly when it decides to block. -/
theorem handle_signal_of_reserve (maps : BlockMaps) (call : Syscall) (slot : RawEvent)
    (hroom : call.inv.reserve = some slot) :
    (call.handle maps).signal = some 9 ↔ call.kernelBlocks maps := by
  cases call with
  | exec inv =>
      simp only [Syscall.inv] at hroom
      simp only [Syscall.handle, tryHandleExec, hroom, Syscall.kernelBlocks, lsmExec_iff, or_self]
      by_cases hblock : execShouldBlock maps inv = true
      · simp only [hblock, if_true]
      · simp only [hblock, Bool.false_eq_true, if_false, reduceCtorEq]
  | fileOpen inv =>
      simp only [Syscall.inv] at hroom
      simp only [Syscall.handle, tryHandleFileOpen, hroom, Syscall.kernelBlocks, reduceCtorEq]
  | netConnect inv =>
      simp only [Syscall.inv] at hroom
      simp only [Syscall.handle, tryHandleNetConnect, Syscall.kernelBlocks]
      -- Without a target the handler returns before it asks for room.
      cases connectTarget inv with
      | none =>
          simp only [Outcome.skipped, reduceCtorEq, false_and, exists_false]
      | some target =>
          simp only [hroom, Option.some.injEq, exists_eq_left']
          by_cases hblock : portIsBlocked maps target.dstPort = true
          · simp only [hblock, if_true]
          · simp only [hblock, Bool.false_eq_true, if_false, reduceCtorEq]

/-- The rule on outbound traffic from the manual. -/
def pythonRule : Rule :=
  { Rule.bare "block-python-outbound" .block with
    matchProcess := ["python3", "python"]
    matchPort := [80, 443, 8080] }

def python3 : TaskComm := ⟨bytes "python3", by decide, by decide⟩

theorem exists_covers_of_reachesBlock {glob : GlobCrate} {rules : List Rule} {a : Attempt}
    (h : ReachesBlock glob rules a) : ∃ r ∈ rules, r.covers glob a = true := by
  rcases h with ⟨pre, r, post, rfl, hcovers, _⟩
  exact ⟨r, List.mem_append_right pre List.mem_cons_self, hcovers⟩

/-- A rule on a port covers no `execve`. -/
theorem covers_exec_of_matchPort (glob : GlobCrate) (r : Rule) (h : r.matchPort ≠ [])
    (comm : TaskComm) (uid : UInt32) : r.covers glob (.exec comm uid) = false := by
  have hport : r.matchPort.isEmpty = false := by
    cases hp : r.matchPort with
    | nil =>
        exact absurd hp h
    | cons p ps =>
        rfl
  unfold Rule.covers
  simp only [hport, Bool.and_false, Bool.false_and]

theorem not_reachesBlock_pythonRule :
    ¬ ReachesBlock GlobCrate.literal [pythonRule] (.exec python3 1000) := by
  intro h
  rcases exists_covers_of_reachesBlock h with ⟨r, hr, hcovers⟩
  rw [List.mem_singleton] at hr
  subst hr
  rw [covers_exec_of_matchPort _ _ (by decide)] at hcovers
  exact absurd hcovers (by decide)

theorem reachesBlock_rootRule :
    ReachesBlock GlobCrate.literal [rootRule] (.exec TaskComm.empty 0) := by
  refine ⟨[], rootRule, [], rfl, by decide, rfl, ?_⟩
  intro x hx
  exact absurd hx List.not_mem_nil

/-! ## Blocking more than the rules do -/

/-- The record a call leaves, in whatever slot, decodes to an event that
    evaluates to blocked. -/
def EvaluatesToBlocked (glob : GlobCrate) (maps : BlockMaps) (rules : List Rule)
    (call : Syscall) : Prop :=
  ∀ slot id, ∃ raw ev name, call.record maps slot = some raw ∧
    parseRawEvent id sizeOfRawEvent raw = .ok ev ∧
    RuleSet.evaluate glob ⟨rules⟩ ev = some (.blocked, name)

theorem exists_record_of_attempt (maps : BlockMaps) (call : Syscall) (a : Attempt)
    (h : call.attempt = some a) (slot : RawEvent) : ∃ raw, call.record maps slot = some raw := by
  cases call with
  | exec inv =>
      exact ⟨_, rfl⟩
  | fileOpen inv =>
      exact ⟨_, rfl⟩
  | netConnect inv =>
      rw [Syscall.attempt, Option.map_eq_some_iff] at h
      rcases h with ⟨target, htarget, _⟩
      refine ⟨netConnectRecord maps inv target slot, ?_⟩
      rw [Syscall.record, htarget, Option.map_some]

theorem evaluatesToBlocked_iff (glob : GlobCrate) (maps : BlockMaps) (rules : List Rule)
    (call : Syscall) (a : Attempt) (h : call.attempt = some a) :
    EvaluatesToBlocked glob maps rules call ↔ ReachesBlock glob rules a := by
  constructor
  · intro heval
    -- Any slot will do; the verdict does not depend on it.
    rcases heval RawEvent.zeroed 0 with ⟨raw, ev, name, hrecord, hparse, hverdict⟩
    rw [parseRawEvent_eq, Except.ok.injEq] at hparse
    subst hparse
    exact (evaluate_decoded_blocked_iff glob maps rules call a _ raw 0 h hrecord).mp
      ⟨name, hverdict⟩
  · intro hreach slot id
    rcases exists_record_of_attempt maps call a h slot with ⟨raw, hrecord⟩
    rcases (evaluate_decoded_blocked_iff glob maps rules call a slot raw id h hrecord).mpr hreach
      with ⟨name, hverdict⟩
    exact ⟨raw, decoded id raw, name, hrecord, parseRawEvent_eq id raw, hverdict⟩

/-- The kernel blocks only what the rules block exactly on the attempts whose
    keys no block rule names and on those that reach a block rule. -/
theorem kernelBlocks_imp_evaluatesToBlocked_iff (glob : GlobCrate) (prior maps : BlockMaps)
    (rules : List Rule) (hload : loadRules prior rules = (maps, .ok ())) (call : Syscall) :
    (call.kernelBlocks maps → EvaluatesToBlocked glob maps rules call) ↔
      ∀ a, call.attempt = some a → Named rules a → ReachesBlock glob rules a := by
  have hexact := holdsExactly_of_loadRules prior maps rules hload
  rw [kernelBlocks_iff_named maps rules hexact call]
  constructor
  · intro h a ha hnamed
    exact (evaluatesToBlocked_iff glob maps rules call a ha).mp (h ⟨a, ha, hnamed⟩)
  · intro h hblocks
    rcases hblocks with ⟨a, ha, hnamed⟩
    exact (evaluatesToBlocked_iff glob maps rules call a ha).mpr (h a ha hnamed)

/-- A rule on one user blocks that user alike at both levels. -/
theorem kernelBlocks_imp_evaluatesToBlocked_root :
    (Syscall.exec (Invocation.bare TaskComm.empty 0)).kernelBlocks rootMaps ∧
      EvaluatesToBlocked GlobCrate.literal rootMaps [rootRule]
        (.exec (Invocation.bare TaskComm.empty 0)) := by
  have hblocks : (Syscall.exec (Invocation.bare TaskComm.empty 0)).kernelBlocks rootMaps :=
    Or.inl (by decide)
  have hiff := kernelBlocks_imp_evaluatesToBlocked_iff GlobCrate.literal BlockMaps.empty rootMaps
    [rootRule] loadRules_rootRule (.exec (Invocation.bare TaskComm.empty 0))
  refine ⟨hblocks, hiff.mpr ?_ hblocks⟩
  intro a ha _
  rw [Syscall.attempt, Option.some.injEq] at ha
  subst ha
  exact reachesBlock_rootRule

/-- The rule asks for a port, which no `execve` has, and the caller's name
    alone gets its `execve` blocked. -/
theorem pythonRule_blocks_exec :
    (loadRules BlockMaps.empty [pythonRule]).2 = .ok () ∧
      (Syscall.exec (Invocation.bare python3 1000)).kernelBlocks
        (loadRules BlockMaps.empty [pythonRule]).1 ∧
      ¬ EvaluatesToBlocked GlobCrate.literal (loadRules BlockMaps.empty [pythonRule]).1
        [pythonRule] (.exec (Invocation.bare python3 1000)) := by
  have hfit : (computeBlockKeys [pythonRule]).Fit := by decide
  refine ⟨(loadRules_ok_iff _ _).mpr hfit, ?_, ?_⟩
  · -- The name alone is a key, and the port of the rule is another.
    have hexact := holdsExactly_of_fit BlockMaps.empty [pythonRule] hfit
    refine (kernelBlocks_iff_named _ [pythonRule] hexact _).mpr ⟨_, rfl, pythonRule, ?_⟩
    refine ⟨List.mem_singleton_self _, rfl, .comm python3.buf, List.mem_cons_self, ?_⟩
    exact (mem_blockKeys_comm pythonRule _).mpr List.mem_cons_self
  · rw [evaluatesToBlocked_iff _ _ _ _ (.exec python3 1000) rfl]
    exact not_reachesBlock_pythonRule

/-! ## Forgetting a block -/

/-- The event leaves the fast path blocked, and the incident logger records
    it. -/
def KeptAsIncident (glob : GlobCrate) (fp : FastPath) (ev : NormalizedEvent) : Prop :=
  (fp.evaluate glob ev).action = .blocked ∧
    (incidentRecord (fp.evaluate glob ev)).isSome = true

theorem keptAsIncident_iff (glob : GlobCrate) (fp : FastPath) (ev : NormalizedEvent) :
    KeptAsIncident glob fp ev ↔ (fp.evaluate glob ev).action = .blocked := by
  constructor
  · intro h
    exact h.1
  · intro h
    refine ⟨h, ?_⟩
    unfold incidentRecord
    rw [h]
    rfl

/-- A record marked blocked comes from a call the kernel has keys for. -/
theorem exists_attempt_of_blocked (maps : BlockMaps) (call : Syscall) (slot raw : RawEvent)
    (hrecord : call.record maps slot = some raw) (hblocked : raw.blocked = 1) :
    ∃ a, call.attempt = some a := by
  cases call with
  | exec inv =>
      exact ⟨_, rfl⟩
  | fileOpen inv =>
      -- The open handler always writes zero into the flag.
      rw [Syscall.record, Option.some.injEq] at hrecord
      rw [← hrecord, (decoded_fileOpenRecord inv slot 0).2.2.2] at hblocked
      exact absurd hblocked (by decide)
  | netConnect inv =>
      rw [Syscall.record, Option.map_eq_some_iff] at hrecord
      rcases hrecord with ⟨target, htarget, _⟩
      refine ⟨.connect inv.comm inv.uid target.dstPort, ?_⟩
      rw [Syscall.attempt, htarget, Option.map_some]

theorem DefaultAction.toAction_eq_blocked (d : DefaultAction) :
    d.toAction = .blocked ↔ d = .block := by
  cases d <;> simp only [DefaultAction.toAction, reduceCtorEq]

/-- What an enabled fast path makes of an attempt's event depends on the rules
    and the default alone. -/
theorem evaluate_blocked_iff_of_enabled (glob : GlobCrate) (maps : BlockMaps) (rules : List Rule)
    (cfg : FastPathConfig) (henabled : cfg.enabled = true) (call : Syscall) (a : Attempt)
    (slot raw : RawEvent) (id : UInt64) (hattempt : call.attempt = some a)
    (hrecord : call.record maps slot = some raw) :
    ((FastPath.ofRules cfg ⟨rules⟩).evaluate glob (decoded id raw)).action = .blocked ↔
      ReachesBlock glob rules a ∨
        (∀ r ∈ rules, r.covers glob a = false) ∧ cfg.defaultAction = .block := by
  have hguard : (fun r : Rule => r.matchesEvent glob (decoded id raw))
      = fun r => r.covers glob a :=
    funext (matchesEvent_decoded glob maps call a slot raw id hattempt hrecord)
  rw [FastPath.evaluate_action glob _ _ henabled, reachesBlock_iff]
  unfold FastPath.rules FastPath.ofRules
  rw [hguard]
  -- Either no rule covers the attempt, or the first one that does decides.
  cases hfind : rules.find? (fun r => r.covers glob a) with
  | none =>
      have hnone : ∀ r ∈ rules, r.covers glob a = false := by
        intro r hr
        exact Bool.eq_false_iff.mpr (List.find?_eq_none.mp hfind r hr)
      simp only [reduceCtorEq, false_and, exists_false, false_or, DefaultAction.toAction_eq_blocked]
      exact ⟨fun h => ⟨hnone, h⟩, fun h => h.2⟩
  | some r =>
      have hcovers : r.covers glob a = true :=
        List.find?_some (p := fun r : Rule => r.covers glob a) hfind
      have hmem := List.mem_of_find?_eq_some hfind
      simp only [Option.some.injEq, exists_eq_left']
      constructor
      · intro h
        exact Or.inl (toAction_inj r.action .block h)
      · intro h
        rcases h with h | ⟨hnone, _⟩
        · rw [h]
          rfl
        · rw [hnone r hmem] at hcovers
          exact absurd hcovers (by decide)

/-- A block the kernel has carried out is still a blocked incident after the
    fast path exactly when the fast path is off, the attempt reaches a block
    rule, or no rule covers the attempt and the default is to block. -/
theorem kernelBlock_keptAsIncident_iff (glob : GlobCrate) (maps : BlockMaps) (rules : List Rule)
    (cfg : FastPathConfig) (call : Syscall) (raw : RawEvent)
    (hsub : (call.handle maps).submitted = some raw) (hblocked : raw.blocked = 1) (id : UInt64) :
    (∃ ev, parseRawEvent id sizeOfRawEvent raw = .ok ev ∧
        KeptAsIncident glob (FastPath.ofRules cfg ⟨rules⟩) ev) ↔
      cfg.enabled = false ∨ ∃ a, call.attempt = some a ∧
        (ReachesBlock glob rules a ∨
          (∀ r ∈ rules, r.covers glob a = false) ∧ cfg.defaultAction = .block) := by
  rcases (handle_submitted_iff maps call raw).mp hsub with ⟨slot, _, hrecord⟩
  rcases exists_attempt_of_blocked maps call slot raw hrecord hblocked with ⟨a, hattempt⟩
  simp only [parseRawEvent_eq, Except.ok.injEq, exists_eq_left', keptAsIncident_iff]
  rw [hattempt]
  simp only [Option.some.injEq, exists_eq_left']
  cases henabled : cfg.enabled with
  | false =>
      -- The stage is skipped, and the event keeps the action decoded from the flag.
      have hflag : (decoded id raw).action = .blocked := by
        unfold decoded
        rw [hblocked]
        rfl
      rw [FastPath.evaluate_disabled glob _ _ henabled, hflag]
      simp only [true_or]
  | true =>
      -- The flag is overwritten, and the rules decide.
      rw [evaluate_blocked_iff_of_enabled glob maps rules cfg henabled call a slot raw id hattempt
        hrecord]
      simp only [Bool.true_eq_false, false_or]

/-- A block by a rule on the user alone is still an incident. -/
theorem kernelBlock_keptAsIncident_root :
    ∃ ev, parseRawEvent 0 sizeOfRawEvent (execRecord rootMaps (Invocation.bare TaskComm.empty 0)
        RawEvent.zeroed) = .ok ev ∧
      KeptAsIncident GlobCrate.literal (FastPath.ofRules .shipped ⟨[rootRule]⟩) ev := by
  refine (kernelBlock_keptAsIncident_iff GlobCrate.literal rootMaps [rootRule] .shipped
    (.exec (Invocation.bare TaskComm.empty 0)) _ rfl ?_ 0).mpr ?_
  · rw [(decoded_execRecord _ _ _ 0).2.2.2]
    decide
  · exact Or.inr ⟨_, rfl, Or.inl reachesBlock_rootRule⟩

/-- The kernel kills the caller on its name, and the fast path files the event
    as logged. -/
theorem pythonRule_forgets_block :
    ∃ raw, ((Syscall.exec (Invocation.bare python3 1000)).handle
          (loadRules BlockMaps.empty [pythonRule]).1).submitted = some raw ∧
      raw.blocked = 1 ∧
      ¬ ∃ ev, parseRawEvent 0 sizeOfRawEvent raw = .ok ev ∧
        KeptAsIncident GlobCrate.literal (FastPath.ofRules .shipped ⟨[pythonRule]⟩) ev := by
  refine ⟨_, rfl, ?_, ?_⟩
  · rw [(decoded_execRecord _ _ _ 0).2.2.2]
    decide
  · intro h
    rcases h with ⟨ev, hparse, hkept⟩
    rw [parseRawEvent_eq, Except.ok.injEq] at hparse
    subst hparse
    rw [keptAsIncident_iff, evaluate_blocked_iff_of_enabled GlobCrate.literal
      (loadRules BlockMaps.empty [pythonRule]).1 [pythonRule] .shipped rfl
      (.exec (Invocation.bare python3 1000)) (.exec python3 1000) RawEvent.zeroed _ 0 rfl rfl] at hkept
    rcases hkept with hreach | ⟨_, hdefault⟩
    · exact not_reachesBlock_pythonRule hreach
    · exact absurd hdefault (by decide)

end VectorGuard
