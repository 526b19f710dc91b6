import VectorGuard.Core.Collector
import VectorGuard.Core.Ebpf

/-!
# Records in Flight

From a handler call to the decoded event: what the kernel knew about the
caller and what of it reaches user space.

The three handlers write the same header and then touch the payload only, so
one lemma per writer says that it keeps the header, and everything the decoder
takes from the header follows at once. The name is the interesting field. The
handler copies sixteen bytes into a field of sixty-four and leaves the rest of
the slot alone; the copy carries its own NUL, so the stale bytes behind it are
never read.

The payload matters to the network event and to the file event, which are
decoded from it. The path an exec record carries is the executed path, but the
event decoded from the record has no field for it.

## Main definitions

* `SameHeader`: Records that differ in their payload only.

## Theorems

* `commStr_fillHeader`: The decoded name is the caller's task name.
* `sameHeader_execRecord`: An exec record is its header with some payload.
* `sameHeader_fileOpenRecord`: The same for a file open record.
* `read_filename_execRecord`: The record carries the executed path.
* `read_path_fileOpenRecord`: The record carries the opened path.
* `decoded_execRecord`: What an exec record decodes to.
* `decoded_fileOpenRecord`: What a file open record decodes to.
* `decoded_netConnectRecord`: What a connect record decodes to.
-/

namespace VectorGuard

/-- The second record differs from the first in its payload only. -/
def SameHeader (e e' : RawEvent) : Prop :=
  ∃ p, e' = { e with payload := p }

theorem SameHeader.refl (e : RawEvent) : SameHeader e e := ⟨e.payload, rfl⟩

theorem SameHeader.trans {e e' e'' : RawEvent} (h : SameHeader e e') (h' : SameHeader e' e'') :
    SameHeader e e'' := by
  rcases h with ⟨p, rfl⟩
  rcases h' with ⟨q, rfl⟩
  exact ⟨q, rfl⟩

/-- The name decoded from a record is the caller's, whatever the slot held. -/
theorem commStr_fillHeader (inv : Invocation) (kind : EventKind) (blocked : Bool)
    (slot : RawEvent) : (fillHeader inv kind blocked slot).commStr = inv.comm.str := by
  unfold RawEvent.commStr fillHeader fillComm Invocation.getComm TaskComm.str
  rw [read_comm_buf]

section Writers

variable (inv : Invocation) (event : RawEvent)

theorem sameHeader_fillArgv (argvPtr : UInt64) : SameHeader event (fillArgv inv event argvPtr) := by
  unfold fillArgv
  cases inv.readUserBuf (argvPtr + 8) 8 with
  | none =>
      exact SameHeader.refl event
  | some ptrBuf =>
      -- A null argv[1] ends the list: there is nothing to read.
      by_cases hptr : u64FromNeBytes ptrBuf = 0
      · simp only [hptr, if_true]
        exact SameHeader.refl event
      · simp only [hptr, if_false]
        exact ⟨_, rfl⟩

theorem sameHeader_readFilename : SameHeader event (readFilename inv event) := by
  unfold readFilename
  cases inv.pointerAt 16 with
  | none =>
      exact SameHeader.refl event
  | some ptr =>
      exact ⟨_, rfl⟩

theorem sameHeader_readArgv : SameHeader event (readArgv inv event) := by
  unfold readArgv
  cases inv.pointerAt 24 with
  | none =>
      exact SameHeader.refl event
  | some ptr =>
      exact sameHeader_fillArgv inv event ptr

theorem sameHeader_readPath : SameHeader event (readPath inv event) := by
  unfold readPath
  cases inv.pointerAt 24 with
  | none =>
      exact SameHeader.refl event
  | some ptr =>
      exact ⟨_, rfl⟩

theorem sameHeader_readFlags : SameHeader event (readFlags inv event) := by
  unfold readFlags
  cases inv.readAt 32 with
  | none =>
      exact SameHeader.refl event
  | some flags =>
      exact ⟨_, rfl⟩

end Writers

theorem sameHeader_execRecord (maps : BlockMaps) (inv : Invocation) (slot : RawEvent) :
    SameHeader (fillHeader inv .exec (execShouldBlock maps inv) slot)
      (execRecord maps inv slot) := by
  unfold execRecord
  generalize fillHeader inv .exec (execShouldBlock maps inv) slot = event
  -- Header, zeroed payload, filename, argv: each writer starts from the last.
  have hzero : SameHeader event (zeroExecPayload event) := ⟨_, rfl⟩
  have hname := sameHeader_readFilename inv (zeroExecPayload event)
  have hargv := sameHeader_readArgv inv (readFilename inv (zeroExecPayload event))
  exact (hzero.trans hname).trans hargv

theorem sameHeader_fileOpenRecord (inv : Invocation) (slot : RawEvent) :
    SameHeader (fillHeader inv .fileOpen false slot) (fileOpenRecord inv slot) := by
  unfold fileOpenRecord
  generalize fillHeader inv .fileOpen false slot = event
  have hpath := sameHeader_readPath inv event
  have hflags := sameHeader_readFlags inv (readPath inv event)
  exact hpath.trans hflags

/-- The argument pointers do not share a buffer: reading argv leaves the
    filename alone. -/
theorem filename_readArgv (inv : Invocation) (event : RawEvent) :
    (readArgv inv event).payload.exec.filename = event.payload.exec.filename := by
  unfold readArgv fillArgv
  cases inv.pointerAt 24 with
  | none =>
      rfl
  | some argvPtr =>
      simp only []
      cases inv.readUserBuf (argvPtr + 8) 8 with
      | none =>
          rfl
      | some ptrBuf =>
          simp only []
          split <;> rfl

/-- The path of the executed file is in the record, whatever the slot held. -/
theorem read_filename_execRecord (maps : BlockMaps) (inv : Invocation) (slot : RawEvent)
    (ptr : UInt64) (path : UserStr 256) (hptr : inv.pointerAt 16 = some ptr)
    (hread : inv.readUserStr ptr 256 = some path) :
    Terminated.read 0 (execRecord maps inv slot).payload.exec.filename.toList = path.val := by
  unfold execRecord
  -- argv is written last and does not reach into the filename.
  rw [filename_readArgv]
  unfold readFilename
  rw [hptr]
  simp only [Invocation.readStrInto, hread]
  exact Terminated.read_store 0 _ path.val path.property.1 path.property.2

/-- The path of the opened file is in the record, whatever the slot held. -/
theorem read_path_fileOpenRecord (inv : Invocation) (slot : RawEvent) (ptr : UInt64)
    (path : UserStr 256) (hptr : inv.pointerAt 24 = some ptr)
    (hread : inv.readUserStr ptr 256 = some path) :
    Terminated.read 0 (fileOpenRecord inv slot).payload.file.path.toList = path.val := by
  have hflags : ∀ event, (readFlags inv event).payload.file.path = event.payload.file.path := by
    intro event
    unfold readFlags
    cases inv.readAt 32 with
    | none =>
        rfl
    | some flags =>
        rfl
  unfold fileOpenRecord
  -- The flags are written last and leave the path alone.
  rw [hflags]
  unfold readPath
  rw [hptr]
  simp only [Invocation.readStrInto, hread]
  exact Terminated.read_store 0 _ path.val path.property.1 path.property.2

/-- An exec record decodes to an exec event of the caller. -/
theorem decoded_execRecord (maps : BlockMaps) (inv : Invocation) (slot : RawEvent)
    (id : UInt64) :
    (decoded id (execRecord maps inv slot)).process.binary = inv.comm.str ∧
      (decoded id (execRecord maps inv slot)).process.uid = inv.uid ∧
      (decoded id (execRecord maps inv slot)).eventType = .exec ∧
      (execRecord maps inv slot).blocked = (if execShouldBlock maps inv then 1 else 0) := by
  rcases sameHeader_execRecord maps inv slot with ⟨p, hp⟩
  rw [hp]
  exact ⟨commStr_fillHeader inv .exec _ slot, rfl, rfl, rfl⟩

/-- A file open record decodes to an event on the path it carries and is never
    marked blocked. -/
theorem decoded_fileOpenRecord (inv : Invocation) (slot : RawEvent) (id : UInt64) :
    (decoded id (fileOpenRecord inv slot)).process.binary = inv.comm.str ∧
      (decoded id (fileOpenRecord inv slot)).process.uid = inv.uid ∧
      (∃ flags, (decoded id (fileOpenRecord inv slot)).eventType = .fileAccess
        (fromUtf8OrInvalid (Terminated.read 0 (fileOpenRecord inv slot).payload.file.path.toList))
        flags) ∧
      (fileOpenRecord inv slot).blocked = 0 := by
  rcases sameHeader_fileOpenRecord inv slot with ⟨p, hp⟩
  rw [hp]
  exact ⟨commStr_fillHeader inv .fileOpen false slot, rfl, ⟨_, rfl⟩, rfl⟩

/-- A connect record decodes to a network event with the target's port. -/
theorem decoded_netConnectRecord (maps : BlockMaps) (inv : Invocation) (target : ConnectTarget)
    (slot : RawEvent) (id : UInt64) :
    (decoded id (netConnectRecord maps inv target slot)).process.binary = inv.comm.str ∧
      (decoded id (netConnectRecord maps inv target slot)).process.uid = inv.uid ∧
      (∃ ip, (decoded id (netConnectRecord maps inv target slot)).eventType
        = .network .outbound ip target.dstPort .tcp) ∧
      (netConnectRecord maps inv target slot).blocked
        = (if portIsBlocked maps target.dstPort then 1 else 0) :=
  ⟨commStr_fillHeader inv .netConnect _ slot, rfl, ⟨_, rfl⟩, rfl⟩

end VectorGuard
