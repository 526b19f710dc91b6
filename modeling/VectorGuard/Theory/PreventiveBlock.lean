import VectorGuard.Theory.Loading
import VectorGuard.Theory.KernelRuns
import VectorGuard.Theory.PathRules

/-!
# Preventive Block

What a blocked `execve` comes to when both exec programs are attached.

The LSM hook denies the call and means its caller to survive. But the tracepoint
runs first, on the same call, looks the same keys up, and sends its signal whether
or not a hook is attached behind it. So the caller is spared only where the
tracepoint gave up before the signal, which is when the ring buffer had no room,
and on a kernel without the hook that is when nothing happens at all. The two
halves of a preventive block with a fallback exclude each other.

## Main definitions

* `BlockedCaller`: The caller of an `execve` is in the block maps.
* `PreventiveBlock`: The call is denied and its caller spared, and killed where
  it cannot be denied.

## Theorems

* `execve_check`, `execve_signal`: What the programs do to a blocked caller.
* `not_preventiveBlock`: No blocked `execve` is denied without a kill and killed
  where it is not denied.
-/

namespace VectorGuard

/-- The name or the user of the caller is in the block maps. -/
def BlockedCaller (maps : BlockMaps) (inv : Invocation) : Prop :=
  inv.getComm ∈ maps.comms ∨ inv.uid ∈ maps.uids

/-- On a kernel with BPF LSM the call fails with `-EPERM` and its caller gets no
    signal; on one without, its caller is killed. -/
structure PreventiveBlock (maps : BlockMaps) (inv : Invocation) : Prop where
  denied : ((loadEbpf true).execve maps inv).check = -1
  spared : ((loadEbpf true).execve maps inv).signal = none
  fallback : ((loadEbpf false).execve maps inv).signal = some 9

variable (maps : BlockMaps) (inv : Invocation)

theorem execShouldBlock_of_blockedCaller (h : BlockedCaller maps inv) :
    execShouldBlock maps inv = true :=
  (execShouldBlock_iff maps inv).mpr h

/-- The hook denies every blocked caller. -/
theorem execve_check (h : BlockedCaller maps inv) :
    ((loadEbpf true).execve maps inv).check = -1 :=
  (lsmExec_iff maps inv).mpr (execShouldBlock_of_blockedCaller maps inv h)

/-- The tracepoint signals a blocked caller when there is room for the record,
    with the hook behind it or without. -/
theorem execve_signal (bpfLsm : Bool) (h : BlockedCaller maps inv) :
    ((loadEbpf bpfLsm).execve maps inv).signal = inv.reserve.map (fun _ => 9) := by
  have hblock := execShouldBlock_of_blockedCaller maps inv h
  simp only [loadEbpf, Attached.execve, if_true]
  unfold tryHandleExec
  cases inv.reserve with
  | none => rfl
  | some slot => simp only [hblock, if_true, Option.map_some]

/-- A blocked `execve` is denied where there is a hook. Its caller is spared only
    if the ring buffer was full, and is killed without a hook only if it was not,
    so that no blocked `execve` meets with a preventive block and its fallback. -/
theorem not_preventiveBlock (h : BlockedCaller maps inv) :
    ((loadEbpf true).execve maps inv).check = -1 ∧
      (((loadEbpf true).execve maps inv).signal = none ↔ inv.reserve = none) ∧
      (((loadEbpf false).execve maps inv).signal = some 9 ↔ inv.reserve ≠ none) ∧
      ¬ PreventiveBlock maps inv := by
  have hspared : ((loadEbpf true).execve maps inv).signal = none ↔ inv.reserve = none := by
    rw [execve_signal maps inv true h, Option.map_eq_none_iff]
  have hfallback : ((loadEbpf false).execve maps inv).signal = some 9 ↔ inv.reserve ≠ none := by
    rw [execve_signal maps inv false h]
    cases inv.reserve with
    | none => simp only [Option.map_none, reduceCtorEq, ne_eq, not_true_eq_false]
    | some slot => simp only [Option.map_some, reduceCtorEq, ne_eq, not_false_eq_true]
  refine ⟨execve_check maps inv h, hspared, hfallback, fun hblock => ?_⟩
  exact hfallback.mp hblock.fallback (hspared.mp hblock.spared)

/-- A shell of user 0. -/
def rootShell : Invocation := Invocation.bare sh 0

theorem rootShell_blockedCaller : BlockedCaller rootMaps rootShell := by
  unfold BlockedCaller
  decide

/-- The shell finds a full ring buffer nowhere, so it is not spared. -/
theorem rootShell_not_preventiveBlock :
    ((loadEbpf true).execve rootMaps rootShell).check = -1 ∧
      (((loadEbpf true).execve rootMaps rootShell).signal = none ↔ rootShell.reserve = none) ∧
      (((loadEbpf false).execve rootMaps rootShell).signal = some 9 ↔ rootShell.reserve ≠ none) ∧
      ¬ PreventiveBlock rootMaps rootShell :=
  not_preventiveBlock rootMaps rootShell rootShell_blockedCaller

/-- With user 0 in the maps and room in the ring buffer, the hook denies the
    `execve` of the shell, and the shell is killed. -/
theorem rootShell_killed :
    BlockedCaller rootMaps rootShell ∧ rootShell.reserve ≠ none ∧
      (loadEbpf true).execve rootMaps rootShell = ⟨-1, some 9⟩ ∧
      ¬ PreventiveBlock rootMaps rootShell := by
  refine ⟨rootShell_blockedCaller, by decide, by decide, fun hblock => ?_⟩
  -- The tracepoint signals it, with the hook attached.
  have hspared := hblock.spared
  rw [execve_signal rootMaps rootShell true rootShell_blockedCaller] at hspared
  exact absurd hspared (by decide)

end VectorGuard
