import VectorGuard.Lib.Transition
import VectorGuard.Theory.Agreement

/-!
# Runs of the Kernel Programs

Sequences of system calls against block maps that user space may change at any
point, with a ring buffer that may have room or not at every single call.

The kernel programs keep no state of their own, so a run is a log of what each
handler did with the maps it found. `Targeted` says which calls the maps are
about, in terms of what the handlers read. A targeted call is signalled only
after its record has been submitted, so enforcement follows the ring buffer:
`run_enforces_iff` is the exact relation over whole runs.

## Main definitions

* `Kernel`: The maps and the log of handled calls.
* `KernelStep`: One call, or one change of the maps.
* `Targeted`: A call that the maps are about.
* `Enforces`: Every call in the log is signalled exactly if targeted.

## Theorems

* `targeted_iff_kernelBlocks`: A targeted call is one the handler decides to
  block.
* `handle_signal_iff`: When a handler signals.
* `run_logged`: A run logs what the handlers do.
* `run_enforces_iff`: When a run enforces the maps.
-/

namespace VectorGuard

/-- A call that has been handled, with the maps its handler found. -/
structure Handled where
  maps : BlockMaps
  call : Syscall
  outcome : Outcome

structure Kernel where
  maps : BlockMaps
  log : List Handled

/-- The kernel before the first call. -/
def Kernel.init (maps : BlockMaps) : Kernel := ⟨maps, []⟩

inductive KernelAction
  | call (call : Syscall)
  | update (maps : BlockMaps)

/-- A call is handled against the current maps, or user space changes them. -/
inductive KernelStep : Kernel → KernelAction → Kernel → Prop
  | call (s : Kernel) (c : Syscall) :
      KernelStep s (.call c) { s with log := s.log ++ [⟨s.maps, c, c.handle s.maps⟩] }
  | update (s : Kernel) (maps : BlockMaps) :
      KernelStep s (.update maps) { s with maps := maps }

/-- A call that the maps are about: an `execve` by a blocked name or user, or a
    `connect` whose address can be read, is an internet address and has a
    blocked port. -/
def Targeted (maps : BlockMaps) : Syscall → Prop
  | .exec inv => inv.getComm ∈ maps.comms ∨ inv.uid ∈ maps.uids
  | .fileOpen _ => False
  | .netConnect inv =>
    ∃ ptr sa, inv.readAt 24 = some ptr ∧ ptr ≠ 0 ∧ inv.readUserBuf ptr 28 = some sa ∧
      (saFamily sa = 2 ∨ saFamily sa = 10) ∧ saPort sa ∈ maps.ports

/-- Every call in a log got a kill signal exactly if it was targeted. -/
def Enforces (log : List Handled) : Prop :=
  ∀ e ∈ log, (e.outcome.signal = some 9 ↔ Targeted e.maps e.call)

/-! ## One call -/

theorem exists_decodeSockaddr_iff (sa : Vector UInt8 28) (port : UInt16) :
    (∃ target, decodeSockaddr sa = some target ∧ target.dstPort = port) ↔
      (saFamily sa = 2 ∨ saFamily sa = 10) ∧ saPort sa = port := by
  unfold decodeSockaddr
  by_cases hinet : saFamily sa = 2
  · rw [if_pos hinet]
    simp only [Option.some.injEq, exists_eq_left', hinet, true_or, true_and]
  · rw [if_neg hinet]
    by_cases hinet6 : saFamily sa = 10
    · rw [if_pos hinet6]
      simp only [Option.some.injEq, exists_eq_left', hinet6, or_true, true_and]
    · rw [if_neg hinet6]
      simp only [reduceCtorEq, false_and, exists_false, hinet, hinet6, or_self]

/-- What the connect handler extracts, read off its arguments. -/
theorem exists_connectTarget_iff (inv : Invocation) (port : UInt16) :
    (∃ target, connectTarget inv = some target ∧ target.dstPort = port) ↔
      ∃ ptr sa, inv.readAt 24 = some ptr ∧ ptr ≠ 0 ∧ inv.readUserBuf ptr 28 = some sa ∧
        (saFamily sa = 2 ∨ saFamily sa = 10) ∧ saPort sa = port := by
  unfold connectTarget
  cases hptr : inv.readAt 24 with
  | none =>
      simp only [Option.getD_none, if_true, reduceCtorEq, false_and, exists_false]
  | some ptr =>
      simp only [Option.getD_some, Option.some.injEq, exists_and_left, exists_eq_left']
      by_cases hnull : ptr = 0
      · simp only [hnull, if_true, reduceCtorEq, false_and, exists_false, ne_eq, not_true]
      · -- A null pointer is skipped; any other one is read, and the read may fail.
        simp only [hnull, if_false, ne_eq, not_false_eq_true, true_and]
        cases inv.readUserBuf ptr 28 with
        | none =>
            simp only [reduceCtorEq, false_and, exists_false]
        | some sa =>
            simp only [Option.some.injEq, exists_eq_left']
            exact exists_decodeSockaddr_iff sa port

/-- The handlers decide to block exactly the targeted calls. -/
theorem targeted_iff_kernelBlocks (maps : BlockMaps) (call : Syscall) :
    Targeted maps call ↔ call.kernelBlocks maps := by
  cases call with
  | exec inv =>
      simp only [Targeted, Syscall.kernelBlocks]
      rw [lsmExec_iff, or_self, execShouldBlock_iff]
      rfl
  | fileOpen inv =>
      simp only [Targeted, Syscall.kernelBlocks]
  | netConnect inv =>
      -- The target the handler extracts carries the port that can be read.
      simp only [Targeted, Syscall.kernelBlocks, portIsBlocked_iff]
      constructor
      · intro h
        rcases h with ⟨ptr, sa, hptr, hnull, hread, hfamily, hport⟩
        rcases (exists_connectTarget_iff inv (saPort sa)).mpr
          ⟨ptr, sa, hptr, hnull, hread, hfamily, rfl⟩ with ⟨target, htarget, hdst⟩
        exact ⟨target, htarget, hdst ▸ hport⟩
      · intro h
        rcases h with ⟨target, htarget, hport⟩
        rcases (exists_connectTarget_iff inv target.dstPort).mp ⟨target, htarget, rfl⟩
          with ⟨ptr, sa, hptr, hnull, hread, hfamily, hdst⟩
        exact ⟨ptr, sa, hptr, hnull, hread, hfamily, hdst ▸ hport⟩

/-- Without room for the record a handler returns before it would signal. -/
theorem handle_signal_of_full (maps : BlockMaps) (call : Syscall)
    (hfull : call.inv.reserve = none) : (call.handle maps).signal = none := by
  cases call with
  | exec inv =>
      simp only [Syscall.inv] at hfull
      simp only [Syscall.handle, tryHandleExec, hfull, Outcome.skipped]
  | fileOpen inv =>
      simp only [Syscall.inv] at hfull
      simp only [Syscall.handle, tryHandleFileOpen, hfull, Outcome.skipped]
  | netConnect inv =>
      simp only [Syscall.inv] at hfull
      simp only [Syscall.handle, tryHandleNetConnect, hfull]
      cases connectTarget inv with
      | none =>
          rfl
      | some target =>
          rfl

/-- A handler signals exactly the targeted calls it has room to report. -/
theorem handle_signal_iff (maps : BlockMaps) (call : Syscall) :
    (call.handle maps).signal = some 9 ↔ Targeted maps call ∧ call.inv.reserve ≠ none := by
  cases hroom : call.inv.reserve with
  | none =>
      rw [handle_signal_of_full maps call hroom]
      simp only [reduceCtorEq, ne_eq, not_true, and_false]
  | some slot =>
      rw [handle_signal_of_reserve maps call slot hroom, targeted_iff_kernelBlocks]
      simp only [ne_eq, reduceCtorEq, not_false_eq_true, and_true]

/-! ## Whole runs -/

/-- A step keeps the log a list of what handlers do. -/
theorem step_logged (s t : Kernel) (a : KernelAction) (h : KernelStep s a t)
    (hlog : ∀ e ∈ s.log, e.outcome = e.call.handle e.maps) :
    ∀ e ∈ t.log, e.outcome = e.call.handle e.maps := by
  cases h with
  | call c =>
      -- Only the last entry is new, and it is made from the handler.
      intro e he
      rcases List.mem_append.mp he with hold | hnew
      · exact hlog e hold
      · rw [List.mem_singleton] at hnew
        rw [hnew]
  | update maps =>
      exact hlog

/-- Every entry in the log of a run is what its handler does with the maps it
    found. -/
theorem run_logged (maps : BlockMaps) (acts : List KernelAction) (s : Kernel)
    (hrun : Transition.Run KernelStep (Kernel.init maps) acts s) :
    ∀ e ∈ s.log, e.outcome = e.call.handle e.maps :=
  hrun.invariant (I := fun _ s => ∀ e ∈ s.log, e.outcome = e.call.handle e.maps)
    (fun _ he => absurd he List.not_mem_nil)
    (fun _ t a u _ hlog hstep => step_logged t u a hstep hlog)

/-- A run enforces the maps exactly when every targeted call in it found room
    for its record. -/
theorem run_enforces_iff (maps : BlockMaps) (acts : List KernelAction) (s : Kernel)
    (hrun : Transition.Run KernelStep (Kernel.init maps) acts s) :
    Enforces s.log ↔ ∀ e ∈ s.log, Targeted e.maps e.call → e.call.inv.reserve ≠ none := by
  have hlog := run_logged maps acts s hrun
  unfold Enforces
  constructor
  · -- A signal is sent only after the record has been reserved.
    intro h e he htargeted
    have hsignal := (h e he).mpr htargeted
    rw [hlog e he, handle_signal_iff] at hsignal
    exact hsignal.2
  · intro h e he
    rw [hlog e he, handle_signal_iff]
    exact ⟨fun hboth => hboth.1, fun htargeted => ⟨htargeted, h e he htargeted⟩⟩

/-- A run of one call. -/
theorem run_single (maps : BlockMaps) (c : Syscall) :
    Transition.Run KernelStep (Kernel.init maps) [.call c]
      ⟨maps, [⟨maps, c, c.handle maps⟩]⟩ :=
  Transition.Run.snoc Transition.Run.nil (KernelStep.call (Kernel.init maps) c)

/-- Root's `execve` is killed when there is room for its record. -/
theorem run_enforces_root :
    Enforces [⟨rootMaps, .exec (Invocation.bare TaskComm.empty 0),
      (Syscall.exec (Invocation.bare TaskComm.empty 0)).handle rootMaps⟩] := by
  refine (run_enforces_iff rootMaps _ _
    (run_single rootMaps (.exec (Invocation.bare TaskComm.empty 0)))).mpr ?_
  intro e he _
  rw [List.mem_singleton] at he
  rw [he]
  exact fun hnone => absurd hnone (by simp only [Syscall.inv, Invocation.bare, reduceCtorEq,
    not_false_eq_true])

/-- Root's `execve` when the ring buffer is full. -/
def rootExecFull : Syscall :=
  .exec { Invocation.bare TaskComm.empty 0 with reserve := none }

/-- With a full ring buffer root's `execve` is targeted and goes through. -/
theorem rootExecFull_not_enforced :
    Transition.Run KernelStep (Kernel.init rootMaps) [.call rootExecFull]
        ⟨rootMaps, [⟨rootMaps, rootExecFull, rootExecFull.handle rootMaps⟩]⟩ ∧
      ¬ Enforces [⟨rootMaps, rootExecFull, rootExecFull.handle rootMaps⟩] := by
  refine ⟨run_single rootMaps rootExecFull, ?_⟩
  intro h
  have htargeted : Targeted rootMaps rootExecFull := Or.inr (by decide)
  have hsignal := (h _ (List.mem_singleton_self _)).mpr htargeted
  rw [handle_signal_of_full rootMaps rootExecFull rfl] at hsignal
  exact absurd hsignal (by simp only [reduceCtorEq, not_false_eq_true])

end VectorGuard
