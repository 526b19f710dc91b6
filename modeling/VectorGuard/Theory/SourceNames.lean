import VectorGuard.Core.Auditd
import VectorGuard.Core.Falco
import VectorGuard.Core.Scope
import VectorGuard.Core.Tetragon
import VectorGuard.Theory.Records

/-!
# Process Names by Source

One `execve` as the four event sources report it, and what the conditions on
the process name make of it.

The kernel and Falco report the name of the process and auditd reports it in
double quotes, which the decoder strips together with any quotes of the name's
own. Tetragon reports the path of the executable, and its adapter puts the
path where the others put the name. A pattern is then matched against
different strings, and the answers agree only as far as the pattern list does
not tell the strings apart.

## Main definitions

* `Sightings`: What the four sources report of one `execve`.
* `Sightings.event`: The event a source's decoder makes of it.
* `SameAnswers`: The conditions on the process name cannot tell two events
  apart.

## Theorems

* `allows_eq`: The scope filter's conditions on the process name, split off.
* `binary_of_event`: The string each source is matched by.
* `sameAnswers_iff`: When the answers do not depend on the source.
-/

namespace VectorGuard

/-! ## Conditions on the process name -/

namespace ScopeFilter

variable {glob : GlobCrate} (f : ScopeFilter glob)

/-- The list of excluded processes. -/
def excludes (event : NormalizedEvent) : Bool :=
  f.excludeProcesses.any (fun p => glob.accepts p event.process.binary)

/-- The list of monitored processes. -/
def targeted (event : NormalizedEvent) : Bool :=
  f.targetPatterns.isEmpty || f.targetPatterns.any (fun p => glob.accepts p event.process.binary)

/-- The filters on pod metadata. -/
def allowsMeta (event : NormalizedEvent) : Bool :=
  match event.k8s with
  | none => true
  | some k8s =>
    (f.includeNs.isEmpty || f.includeNs.any (fun p => glob.accepts p k8s.nameSpace)) &&
      !f.excludeNs.any (fun p => glob.accepts p k8s.nameSpace) &&
      f.labelSelectors.all (fun kv => k8s.labels.lookup kv.1 == some kv.2)

theorem ite_false_eq_and (a c : Bool) : (if a = true then false else c) = (!a && c) := by
  cases a <;> rfl

/-- The early returns of the filter are a conjunction. -/
theorem allows_eq (event : NormalizedEvent) :
    f.allows event = (!f.excludes event && f.targeted event && f.allowsMeta event) := by
  unfold allows excludes targeted allowsMeta
  cases event.k8s with
  | none =>
      simp only [ite_false_eq_and, Bool.not_and, Bool.not_not, Bool.and_assoc]
  | some k8s =>
      simp only [ite_false_eq_and, Bool.not_and, Bool.not_not, Bool.and_assoc]

end ScopeFilter

/-- The conditions on the process name answer alike on two events when they are
    configured with a list of patterns: the `match_process` condition of a
    rule, and the two process lists of the scope filter. -/
structure SameAnswers (glob : GlobCrate) (globs : List String) (ev ev' : NormalizedEvent) :
    Prop where
  matchProcess : ∀ r : Rule, r.matchProcess = globs →
    r.processFilter glob ev = r.processFilter glob ev'
  excluded : ∀ cfg : ScopeConfig, cfg.excludeProcesses = globs →
    (ScopeFilter.new glob cfg).excludes ev = (ScopeFilter.new glob cfg).excludes ev'
  targeted : ∀ cfg : ScopeConfig, cfg.targets = globs →
    (ScopeFilter.new glob cfg).targeted ev = (ScopeFilter.new glob cfg).targeted ev'

/-- Some pattern of a list matches. -/
def anyHit (glob : GlobCrate) (globs : List String) (name : String) : Bool :=
  globs.any (fun g => glob.hit g name)

theorem any_compilePatterns (glob : GlobCrate) (globs : List String) (name : String) :
    (compilePatterns glob globs).any (fun p => glob.accepts p name) = anyHit glob globs name := by
  unfold compilePatterns anyHit
  rw [List.any_filterMap]
  refine congrArg (fun f => globs.any f) (funext fun g => ?_)
  unfold GlobCrate.hit
  cases glob.new g <;> rfl

theorem sameAnswers_iff_anyHit (glob : GlobCrate) (globs : List String)
    (ev ev' : NormalizedEvent) :
    SameAnswers glob globs ev ev' ↔
      anyHit glob globs ev.process.binary = anyHit glob globs ev'.process.binary := by
  constructor
  · -- The excluded processes are looked up in the list and nowhere else.
    intro h
    have hexcluded := h.excluded ⟨[], globs, [], [], []⟩ rfl
    unfold ScopeFilter.excludes ScopeFilter.new at hexcluded
    rw [any_compilePatterns, any_compilePatterns] at hexcluded
    exact hexcluded
  · intro h
    refine ⟨?_, ?_, ?_⟩
    · -- An empty list is no condition for a rule and for the targets.
      intro r hr
      unfold Rule.processFilter
      rw [hr]
      exact congrArg (fun b => globs.isEmpty || b) h
    · intro cfg hcfg
      unfold ScopeFilter.excludes ScopeFilter.new
      rw [any_compilePatterns, any_compilePatterns, hcfg]
      exact h
    · intro cfg hcfg
      unfold ScopeFilter.targeted ScopeFilter.new
      rw [any_compilePatterns, any_compilePatterns, hcfg, h]

/-! ## One execve, four sources -/

/-- What the four sources report when a process of the given name executes the
    given path. -/
structure Sightings (name path : String) where
  /-- The kernel handler's environment, maps and slot. -/
  inv : Invocation
  maps : BlockMaps
  slot : RawEvent
  comm_eq : inv.comm.name = bytes name
  /-- The line of the audit log. -/
  auditLine : String
  auditComm : (parseKv auditLine).lookup "comm" = some ("\"" ++ name ++ "\"")
  /-- The line of the Falco log and what it parses to. -/
  fromStr : String → Option Value
  falcoLine : String
  alert : Value
  falcoLine_eq : fromStr falcoLine = some alert
  procName : (alert.field "output_fields").field "proc.name" = .string name
  /-- The messages of the Tetragon response. -/
  process : TetraProcess
  parent : Option TetraProcess
  binary_eq : process.binary = path

/-- What is left of a name reported by auditd: the name without the double
    quotes at its ends, and the executable when that is nothing. -/
def auditdName (name exe : String) : String :=
  if (unquote name).isEmpty then exe else unquote name

namespace Sightings

variable {name path : String}

/-- The event a source's decoder builds. -/
def event (s : Sightings name path) (id : UInt64) : EventSource → Option NormalizedEvent
  | .nativeEbpf => (parseRawEvent id sizeOfRawEvent (execRecord s.maps s.inv s.slot)).toOption
  | .auditd => some (parseAuditdSyscall id s.auditLine).toNormalizedEvent
  | .falco => (parseFalcoJson s.fromStr id s.falcoLine).map SourceEvent.toNormalizedEvent
  | .tetragon => (convertExec id (some s.process) s.parent).map SourceEvent.toNormalizedEvent

/-- The executable of the audit record. -/
def exe (s : Sightings name path) : String := textField (parseKv s.auditLine) "exe"

/-- The string a source's event is matched by. -/
def seenName (s : Sightings name path) : EventSource → String
  | .nativeEbpf => name
  | .auditd => auditdName name s.exe
  | .falco => name
  | .tetragon => path

theorem exists_event (s : Sightings name path) (id : UInt64) (src : EventSource) :
    ∃ ev, s.event id src = some ev := by
  cases src with
  | nativeEbpf =>
      unfold event
      rw [parseRawEvent_eq]
      exact ⟨_, rfl⟩
  | auditd =>
      exact ⟨_, rfl⟩
  | falco =>
      unfold event parseFalcoJson
      rw [s.falcoLine_eq]
      exact ⟨_, rfl⟩
  | tetragon =>
      exact ⟨_, rfl⟩

/-- Every source's event is matched by the string the source reports. -/
theorem binary_of_event (s : Sightings name path) (id : UInt64) (src : EventSource)
    (ev : NormalizedEvent) (h : s.event id src = some ev) :
    ev.process.binary = s.seenName src := by
  cases src with
  | nativeEbpf =>
      unfold event at h
      rw [parseRawEvent_eq, Except.toOption, Option.some.injEq] at h
      rw [← h, (decoded_execRecord s.maps s.inv s.slot id).1]
      unfold TaskComm.str
      rw [s.comm_eq, fromUtf8OrInvalid_bytes]
      rfl
  | auditd =>
      rw [event, Option.some.injEq] at h
      rw [← h, parseAuditdSyscall_binary]
      -- The decoder falls back to the executable when the field comes out empty.
      have hcomm : textField (parseKv s.auditLine) "comm" = unquote name := by
        unfold textField
        rw [s.auditComm, Option.map_some, Option.getD_some, unquote_quoted]
      rw [hcomm]
      rfl
  | falco =>
      unfold event parseFalcoJson at h
      rw [s.falcoLine_eq, Option.map_some, Option.map_some, Option.some.injEq] at h
      rw [← h]
      unfold falcoEvent
      simp only [s.procName]
      rfl
  | tetragon =>
      rw [event, convertExec, Option.map_some, Option.map_some, Option.some.injEq] at h
      rw [← h]
      exact s.binary_eq

end Sightings

/-- The conditions on the process name answer alike on the events of all four
    sources exactly when the pattern list does not tell the strings the sources
    report from the name. -/
theorem sameAnswers_iff (glob : GlobCrate) (globs : List String) {name path : String}
    (s : Sightings name path) (id : UInt64) :
    (∀ src src' ev ev', s.event id src = some ev → s.event id src' = some ev' →
        SameAnswers glob globs ev ev') ↔
      ((∃ g ∈ globs, glob.hit g path = true) ↔ ∃ g ∈ globs, glob.hit g name = true) ∧
        ((∃ g ∈ globs, glob.hit g (auditdName name s.exe) = true) ↔
          ∃ g ∈ globs, glob.hit g name = true) := by
  have hany : ∀ name', (∃ g ∈ globs, glob.hit g name' = true) ↔ anyHit glob globs name' = true :=
    fun _ => List.any_eq_true.symm
  simp only [hany]
  constructor
  · -- Every source is compared with the kernel's, which reports the name itself.
    intro h
    have hsame : ∀ src, anyHit glob globs (s.seenName src) = anyHit glob globs name := by
      intro src
      rcases s.exists_event id src with ⟨ev, hev⟩
      rcases s.exists_event id .nativeEbpf with ⟨ev', hev'⟩
      have hanswers := (sameAnswers_iff_anyHit glob globs ev ev').mp (h src _ ev ev' hev hev')
      rw [s.binary_of_event id src ev hev, s.binary_of_event id _ ev' hev'] at hanswers
      exact hanswers
    exact ⟨Bool.eq_iff_iff.mp (hsame .tetragon), Bool.eq_iff_iff.mp (hsame .auditd)⟩
  · intro h src src' ev ev' hev hev'
    rcases h with ⟨hpath, haudit⟩
    have hsame : ∀ src, anyHit glob globs (s.seenName src) = anyHit glob globs name := by
      intro src
      cases src with
      | nativeEbpf =>
          rfl
      | auditd =>
          exact Bool.eq_iff_iff.mpr haudit
      | falco =>
          rfl
      | tetragon =>
          exact Bool.eq_iff_iff.mpr hpath
    rw [sameAnswers_iff_anyHit, s.binary_of_event id src ev hev,
      s.binary_of_event id src' ev' hev', hsame src, hsame src']

/-- A `bash` that all four sources report. -/
def bashSightings : Sightings "bash" "/usr/bin/bash" where
  inv := Invocation.bare ⟨bytes "bash", by decide, by decide⟩ 1000
  maps := BlockMaps.empty
  slot := RawEvent.zeroed
  comm_eq := rfl
  auditLine := "type=SYSCALL syscall=59 pid=7 comm=\"bash\" exe=\"/usr/bin/bash\""
  auditComm := by decide
  fromStr _ := some (.object [("output_fields", .object [("proc.name", .string "bash")])])
  falcoLine := "\x7b\"output_fields\":\x7b\"proc.name\":\"bash\"\x7d\x7d"
  alert := .object [("output_fields", .object [("proc.name", .string "bash")])]
  falcoLine_eq := rfl
  procName := rfl
  process := ⟨some 7, some 1000, "/", "/usr/bin/bash", "", none⟩
  parent := none
  binary_eq := rfl

/-- A rule on `bash` matches the event of every source but Tetragon's. -/
theorem bash_not_matched_by_tetragon :
    ¬ ∀ src src' ev ev', bashSightings.event 0 src = some ev →
      bashSightings.event 0 src' = some ev' →
        SameAnswers GlobCrate.literal ["bash"] ev ev' := by
  intro h
  rcases bashSightings.exists_event 0 .nativeEbpf with ⟨ev, hev⟩
  rcases bashSightings.exists_event 0 .tetragon with ⟨ev', hev'⟩
  have hanswers := (sameAnswers_iff_anyHit _ _ _ _).mp (h _ _ ev ev' hev hev')
  rw [bashSightings.binary_of_event 0 _ ev hev, bashSightings.binary_of_event 0 _ ev' hev']
    at hanswers
  exact absurd hanswers (by decide)

end VectorGuard
