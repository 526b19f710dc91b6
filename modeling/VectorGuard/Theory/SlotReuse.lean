import VectorGuard.Theory.Agreement

/-!
# Slot Reuse

What a record may carry over from the slot it is written into.

A ring buffer slot is reused memory, so two runs of one call that differ in
the old content of their slots should decode to the same event. The exec
handler clears its payload first and the connect handler writes all of it. The
open handler does neither: it leaves the path alone when there is no filename
pointer to follow and the flags alone when the argument cannot be read, and
then the event carries what an earlier record left there.

A string read is never the leak. It closes what it copies with a NUL, or clears
the buffer when it fails, so the reader sees the same string in every slot.

## Main definitions

* `Syscall.withSlot`: A call whose handler is handed a given slot.
* `WritesPayload`: The handler writes everything the decoder reads.
* `SlotBlind`: The decoded event does not depend on the slot.

## Theorems

* `read_readStrInto`: A string read hides what the buffer held.
* `decoded_fillHeader_congr`: Records decode alike when the decoded views agree.
* `decoded_execRecord_slot`, `decoded_netConnectRecord_slot`: Exec and connect
  records decode alike in every slot.
* `path_leaks`, `flags_leak`: What an open record keeps of its slot.
* `slotBlind_iff`: When a call's event does not depend on the slot.
-/

namespace VectorGuard

/-- The same call, with the slot its handler is handed. -/
def Syscall.withSlot (slot : RawEvent) : Syscall → Syscall
  | .exec inv => .exec { inv with reserve := some slot }
  | .fileOpen inv => .fileOpen { inv with reserve := some slot }
  | .netConnect inv => .netConnect { inv with reserve := some slot }

/-- The handler of the call writes everything the decoder reads: for an
    `openat`, it has a filename pointer to follow and flags to copy. -/
def WritesPayload : Syscall → Prop
  | .exec _ => True
  | .fileOpen inv =>
    (∃ ptr, inv.readAt 24 = some ptr ∧ ptr ≠ 0) ∧ ∃ flags, inv.readAt 32 = some flags
  | .netConnect _ => True

/-- Two runs of a call in different slots decode to the same event, up to the
    identifier the collector hands out. -/
def SlotBlind (maps : BlockMaps) (call : Syscall) : Prop :=
  ∀ slot slot' raw raw' id id' ev ev',
    ((call.withSlot slot).handle maps).submitted = some raw →
    ((call.withSlot slot').handle maps).submitted = some raw' →
    parseRawEvent id sizeOfRawEvent raw = .ok ev →
    parseRawEvent id' sizeOfRawEvent raw' = .ok ev' → ev' = { ev with id := id' }

/-! ## Records in a slot -/

theorem submitted_withSlot_iff (maps : BlockMaps) (call : Syscall) (slot raw : RawEvent) :
    ((call.withSlot slot).handle maps).submitted = some raw ↔ call.record maps slot = some raw := by
  rw [handle_submitted_iff]
  cases call with
  | exec inv =>
      exact ⟨fun ⟨_, hslot, hrecord⟩ => Option.some.inj hslot ▸ hrecord, fun h => ⟨slot, rfl, h⟩⟩
  | fileOpen inv =>
      exact ⟨fun ⟨_, hslot, hrecord⟩ => Option.some.inj hslot ▸ hrecord, fun h => ⟨slot, rfl, h⟩⟩
  | netConnect inv =>
      exact ⟨fun ⟨_, hslot, hrecord⟩ => Option.some.inj hslot ▸ hrecord, fun h => ⟨slot, rfl, h⟩⟩

/-- What is read behind a pointer does not depend on the buffer it is read
    into. -/
theorem read_readStrInto (inv : Invocation) (ptr : UInt64) {n : Nat} (buf buf' : Vector UInt8 n) :
    Terminated.read 0 (inv.readStrInto ptr buf).toList
      = Terminated.read 0 (inv.readStrInto ptr buf').toList := by
  unfold Invocation.readStrInto
  cases inv.readUserStr ptr n with
  | none =>
      -- A failing read zeroes the buffer.
      rfl
  | some s =>
      -- What lies behind the terminator is not decoded.
      simp only []
      rw [Terminated.read_store 0 buf s.val s.property.1 s.property.2,
        Terminated.read_store 0 buf' s.val s.property.1 s.property.2]

/-- Reading argv depends on the argv buffer only. -/
theorem argv_readArgv (inv : Invocation) (event event' : RawEvent)
    (h : event.payload.exec.argv = event'.payload.exec.argv) :
    (readArgv inv event).payload.exec.argv = (readArgv inv event').payload.exec.argv := by
  unfold readArgv fillArgv
  cases inv.pointerAt 24 with
  | none =>
      exact h
  | some argvPtr =>
      simp only []
      cases inv.readUserBuf (argvPtr + 8) 8 with
      | none =>
          exact h
      | some ptrBuf =>
          simp only []
          by_cases hptr : u64FromNeBytes ptrBuf = 0
          · simp only [hptr, if_true]
            exact h
          · simp only [hptr, if_false, h]

/-- The argv of an exec record is what was read over a cleared payload. -/
theorem argv_execRecord (maps : BlockMaps) (inv : Invocation) (slot slot' : RawEvent) :
    (execRecord maps inv slot).payload.exec.argv
      = (execRecord maps inv slot').payload.exec.argv := by
  have hname : ∀ event, (readFilename inv event).payload.exec.argv = event.payload.exec.argv := by
    intro event
    unfold readFilename
    cases inv.pointerAt 16 with
    | none =>
        rfl
    | some ptr =>
        rfl
  unfold execRecord
  -- Both slots have been through `zero_exec_payload` before anything is read.
  refine argv_readArgv inv _ _ ?_
  rw [hname, hname]
  rfl

/-- Records with the same header decode alike when the views the decoder reads
    agree, whatever slots they were written into. -/
theorem decoded_fillHeader_congr (inv : Invocation) (kind : EventKind) (blocked : Bool)
    (slot slot' : RawEvent) (p p' : EventPayload) (id id' : UInt64)
    (hexec : kind = .exec → p.exec.argv = p'.exec.argv)
    (hpath : kind = .fileOpen →
      Terminated.read 0 p.file.path.toList = Terminated.read 0 p'.file.path.toList)
    (hflags : kind = .fileOpen → p.file.flags = p'.file.flags)
    (hnet : kind = .netConnect → p.net = p'.net) :
    decoded id' { fillHeader inv kind blocked slot' with payload := p' }
      = { decoded id { fillHeader inv kind blocked slot with payload := p } with id := id' } := by
  have hcomm := commStr_fillHeader inv kind blocked slot
  have hcomm' := commStr_fillHeader inv kind blocked slot'
  unfold RawEvent.commStr fillHeader fillComm at hcomm hcomm'
  unfold decoded RawEvent.commStr parseEventType fillHeader fillComm
  simp only [] at hcomm hcomm' ⊢
  rw [hcomm, hcomm']
  -- A kind is decoded from its own view of the payload.
  cases kind with
  | exec =>
      simp only [if_true, hexec rfl]
  | fileOpen =>
      simp only [reduceCtorEq, if_false, hpath rfl, hflags rfl]
  | netConnect =>
      simp only [reduceCtorEq, if_false, hnet rfl]
  | privilege =>
      simp only [reduceCtorEq, if_false]

theorem decoded_execRecord_slot (maps : BlockMaps) (inv : Invocation) (slot slot' : RawEvent)
    (id id' : UInt64) :
    decoded id' (execRecord maps inv slot')
      = { decoded id (execRecord maps inv slot) with id := id' } := by
  have hargv := argv_execRecord maps inv slot slot'
  rcases sameHeader_execRecord maps inv slot with ⟨p, hp⟩
  rcases sameHeader_execRecord maps inv slot' with ⟨p', hp'⟩
  rw [hp, hp'] at hargv ⊢
  exact decoded_fillHeader_congr inv .exec _ slot slot' p p' id id' (fun _ => hargv) nofun nofun
    nofun

theorem decoded_netConnectRecord_slot (maps : BlockMaps) (inv : Invocation)
    (target : ConnectTarget) (slot slot' : RawEvent) (id id' : UInt64) :
    decoded id' (netConnectRecord maps inv target slot')
      = { decoded id (netConnectRecord maps inv target slot) with id := id' } :=
  decoded_fillHeader_congr inv .netConnect _ slot slot' _ _ id id' nofun nofun nofun (fun _ => rfl)

/-- A file open record decodes alike in two slots when the path it shows and its
    flags are the same. -/
theorem decoded_fileOpenRecord_slot (inv : Invocation) (slot slot' : RawEvent) (id id' : UInt64)
    (hpath : Terminated.read 0 (fileOpenRecord inv slot).payload.file.path.toList
      = Terminated.read 0 (fileOpenRecord inv slot').payload.file.path.toList)
    (hflags : (fileOpenRecord inv slot).payload.file.flags
      = (fileOpenRecord inv slot').payload.file.flags) :
    decoded id' (fileOpenRecord inv slot')
      = { decoded id (fileOpenRecord inv slot) with id := id' } := by
  rcases sameHeader_fileOpenRecord inv slot with ⟨p, hp⟩
  rcases sameHeader_fileOpenRecord inv slot' with ⟨p', hp'⟩
  rw [hp, hp'] at hpath hflags ⊢
  exact decoded_fillHeader_congr inv .fileOpen _ slot slot' p p' id id' nofun (fun _ => hpath)
    (fun _ => hflags) nofun

/-! ## The open handler -/

theorem path_fileOpenRecord (inv : Invocation) (slot : RawEvent) :
    (fileOpenRecord inv slot).payload.file.path
      = match inv.pointerAt 24 with
        | some ptr => inv.readStrInto ptr slot.payload.file.path
        | none => slot.payload.file.path := by
  unfold fileOpenRecord readFlags readPath
  cases inv.pointerAt 24 with
  | none =>
      cases inv.readAt 32 with
      | none =>
          rfl
      | some flags =>
          rfl
  | some ptr =>
      cases inv.readAt 32 with
      | none =>
          rfl
      | some flags =>
          rfl

theorem flags_fileOpenRecord (inv : Invocation) (slot : RawEvent) :
    (fileOpenRecord inv slot).payload.file.flags
      = match inv.readAt 32 with
        | some flags => flags.toUInt32
        | none => slot.payload.file.flags := by
  unfold fileOpenRecord readFlags readPath
  cases inv.readAt 32 with
  | none =>
      cases inv.pointerAt 24 with
      | none =>
          rfl
      | some ptr =>
          rfl
  | some flags =>
      cases inv.pointerAt 24 with
      | none =>
          rfl
      | some ptr =>
          rfl

theorem pointerAt_eq_some (inv : Invocation) (offset : Nat) (ptr : UInt64) :
    inv.pointerAt offset = some ptr ↔ inv.readAt offset = some ptr ∧ ptr ≠ 0 := by
  unfold Invocation.pointerAt
  cases inv.readAt offset with
  | none =>
      simp only [reduceCtorEq, false_and]
  | some p =>
      simp only [Option.some.injEq]
      by_cases hnull : p = 0
      · simp only [hnull, if_true, reduceCtorEq, ne_eq, false_iff, not_and, Decidable.not_not]
        exact fun h => h.symm
      · simp only [hnull, if_false, Option.some.injEq, ne_eq, iff_self_and]
        exact fun h => h ▸ hnull

/-- What a file open record says about the file. -/
theorem eventType_fileOpenRecord (inv : Invocation) (slot : RawEvent) (id : UInt64) :
    (decoded id (fileOpenRecord inv slot)).eventType
      = .fileAccess
          (fromUtf8OrInvalid
            (Terminated.read 0 (fileOpenRecord inv slot).payload.file.path.toList))
          { read := (fileOpenRecord inv slot).payload.file.flags &&& 1 == 0
            write := (fileOpenRecord inv slot).payload.file.flags &&& 1 != 0 ||
              (fileOpenRecord inv slot).payload.file.flags &&& 2 != 0
            execute := false } := by
  rcases sameHeader_fileOpenRecord inv slot with ⟨p, hp⟩
  rw [hp]
  rfl

/-- A slot that an `openat` of the shadow file for writing has left behind. -/
def shadowSlot : RawEvent :=
  { RawEvent.zeroed with
    kind := .fileOpen
    payload.file :=
      { path := Terminated.store 0 (Vector.replicate 256 0) (bytes "/etc/shadow")
        flags := 1 } }

theorem path_shadowSlot :
    fromUtf8OrInvalid (Terminated.read 0 shadowSlot.payload.file.path.toList) = "/etc/shadow" := by
  have hread : Terminated.read 0 shadowSlot.payload.file.path.toList = bytes "/etc/shadow" :=
    Terminated.read_store 0 _ (bytes "/etc/shadow") (by decide) (by decide)
  rw [hread, fromUtf8OrInvalid_bytes]

theorem path_zeroed :
    fromUtf8OrInvalid (Terminated.read 0 RawEvent.zeroed.payload.file.path.toList) = "" := by
  have hread : Terminated.read 0 RawEvent.zeroed.payload.file.path.toList = bytes "" := by decide
  rw [hread, fromUtf8OrInvalid_bytes]

/-- Without a filename pointer the event shows the path of the slot. -/
theorem path_leaks (inv : Invocation) (id id' : UInt64) (hptr : inv.pointerAt 24 = none) :
    (decoded id' (fileOpenRecord inv RawEvent.zeroed)).eventType
      ≠ (decoded id (fileOpenRecord inv shadowSlot)).eventType := by
  rw [eventType_fileOpenRecord, eventType_fileOpenRecord, path_fileOpenRecord,
    path_fileOpenRecord, hptr]
  simp only []
  rw [path_shadowSlot, path_zeroed]
  intro h
  injection h with hpath _
  exact absurd hpath (by decide)

/-- Without readable flags the event shows the flags of the slot. -/
theorem flags_leak (inv : Invocation) (id id' : UInt64) (hflags : inv.readAt 32 = none) :
    (decoded id' (fileOpenRecord inv RawEvent.zeroed)).eventType
      ≠ (decoded id (fileOpenRecord inv shadowSlot)).eventType := by
  rw [eventType_fileOpenRecord, eventType_fileOpenRecord, flags_fileOpenRecord,
    flags_fileOpenRecord, hflags]
  intro h
  injection h with _ hread
  exact absurd hread (by decide)

/-- The open handler leaks unless it overwrites both fields. -/
theorem not_slotBlind_of_leak (maps : BlockMaps) (inv : Invocation)
    (hleak : (decoded 0 (fileOpenRecord inv RawEvent.zeroed)).eventType
      ≠ (decoded 0 (fileOpenRecord inv shadowSlot)).eventType) :
    ¬ SlotBlind maps (.fileOpen inv) := by
  intro hblind
  have heq := hblind shadowSlot RawEvent.zeroed _ _ 0 0 _ _
    ((submitted_withSlot_iff maps _ _ _).mpr rfl) ((submitted_withSlot_iff maps _ _ _).mpr rfl)
    (parseRawEvent_eq 0 _) (parseRawEvent_eq 0 _)
  exact hleak (congrArg NormalizedEvent.eventType heq)

/-- The event of a call is independent of the slot exactly when its handler
    writes everything the decoder reads. -/
theorem slotBlind_iff (maps : BlockMaps) (call : Syscall) :
    SlotBlind maps call ↔ WritesPayload call := by
  constructor
  · -- A field the open handler leaves alone tells the zeroed slot from the one of
    -- the shadow file.
    intro hblind
    cases call with
    | exec inv =>
        exact True.intro
    | netConnect inv =>
        exact True.intro
    | fileOpen inv =>
        constructor
        · cases hptr : inv.pointerAt 24 with
          | none =>
              exact absurd hblind (not_slotBlind_of_leak maps inv (path_leaks inv 0 0 hptr))
          | some ptr =>
              exact ⟨ptr, (pointerAt_eq_some inv 24 ptr).mp hptr⟩
        · cases hflags : inv.readAt 32 with
          | none =>
              exact absurd hblind (not_slotBlind_of_leak maps inv (flags_leak inv 0 0 hflags))
          | some flags =>
              exact ⟨flags, rfl⟩
  · -- Whatever the decoder reads has been written, by every handler in its way.
    intro hwrites slot slot' raw raw' id id' ev ev' hraw hraw' hev hev'
    rw [submitted_withSlot_iff] at hraw hraw'
    rw [parseRawEvent_eq, Except.ok.injEq] at hev hev'
    rw [← hev, ← hev']
    cases call with
    | exec inv =>
        simp only [Syscall.record, Option.some.injEq] at hraw hraw'
        rw [← hraw, ← hraw']
        exact decoded_execRecord_slot maps inv slot slot' id id'
    | netConnect inv =>
        simp only [Syscall.record, Option.map_eq_some_iff] at hraw hraw'
        rcases hraw with ⟨target, htarget, hraw⟩
        rcases hraw' with ⟨target', htarget', hraw'⟩
        -- The target is decoded from the arguments, so both runs have the same.
        rw [htarget, Option.some.injEq] at htarget'
        rw [← hraw, ← hraw', ← htarget']
        exact decoded_netConnectRecord_slot maps inv target slot slot' id id'
    | fileOpen inv =>
        simp only [Syscall.record, Option.some.injEq] at hraw hraw'
        rcases hwrites with ⟨⟨ptr, hptr⟩, flags, hflags⟩
        rw [← hraw, ← hraw']
        refine decoded_fileOpenRecord_slot inv slot slot' id id' ?_ ?_
        · rw [path_fileOpenRecord, path_fileOpenRecord, (pointerAt_eq_some inv 24 ptr).mpr hptr]
          exact read_readStrInto inv ptr _ _
        · rw [flags_fileOpenRecord, flags_fileOpenRecord, hflags]

/-- An `openat` with a null filename pointer and flags 0. -/
def nullOpen : Syscall :=
  .fileOpen { Invocation.bare python3 1000 with
    readAt := fun offset => if offset = 24 ∨ offset = 32 then some 0 else none }

/-- It is reported as an access to the file its slot was last used for. -/
theorem nullOpen_not_slotBlind : ¬ SlotBlind BlockMaps.empty nullOpen :=
  not_slotBlind_of_leak BlockMaps.empty _ (path_leaks _ 0 0 rfl)

end VectorGuard
