import VectorGuard.Core.UserMemory
import VectorGuard.Theory.PathRules

/-!
# Opened Paths

From the path a process passes to `openat` to the path prefix rules.

A path is any sequence of bytes without NUL. The handler copies the first 255 of
them, the decoder turns these into a string, and a rule compares prefixes. The
first step loses nothing that a prefix of at most 255 bytes can tell. The second
takes all or nothing: if the bytes that were copied are not valid UTF-8, the event
is about the path `<invalid>`, and what the rule says about the start of the path
no longer counts. One invalid byte anywhere in front of the cut is enough, and so
is a character that the cut goes through.

## Main definitions

* `pathPrefixRule`: A rule whose only condition is a list of path prefixes.
* `FiresOnPath`: The rule matches the event of an open exactly for such a path.

## Theorems

* `openedPath_record`: The path that an open is recorded with.
* `matchesEvent_openRecord`: What a rule on path prefixes tests.
* `firesOnPath_iff`: When a rule fires as it should.
-/

namespace VectorGuard

open PartialReads

/-- How many bytes of a path are copied. -/
def pathLimit : Nat := 255

/-- A rule whose only condition is a list of path prefixes. -/
def pathPrefixRule (name : String) (action : RuleAction) (description : Option String)
    (prefixes : List String) : Rule :=
  { Rule.bare name action with
    description := description
    matchPathPrefix := prefixes }

/-- The event of the open matches the rule exactly if one of the prefixes is a
    prefix of the path. -/
def FiresOnPath (glob : GlobCrate) (inv : Invocation) (path : List UInt8) (prefixes : List String)
    (r : Rule) : Prop :=
  ∃ raw, (tryHandleFileOpen inv).submitted = some raw ∧
    ∀ id, ∃ ev, parseRawEvent id sizeOfRawEvent raw = .ok ev ∧
      (r.matchesEvent glob ev = true ↔ ∃ p ∈ prefixes, bytes p <+: path)

/-- What was copied of a path can be decoded, or the text that stands for it
    matches the same as the path. -/
def DecodesFor (path : List UInt8) (prefixes : List String) : Prop :=
  (fromUtf8 (path.take pathLimit)).isSome ∨
    ((∃ p ∈ prefixes, startsWith "<invalid>" p = true) ↔ ∃ p ∈ prefixes, bytes p <+: path)

instance (path : List UInt8) (prefixes : List String) : Decidable (DecodesFor path prefixes) :=
  inferInstanceAs (Decidable (_ ∨ (_ ↔ _)))

theorem startsWith_iff (s p : String) : startsWith s p = true ↔ bytes p <+: bytes s :=
  List.isPrefixOf_iff_prefix

/-- A short prefix is a prefix of the path if it is one of what was copied. -/
theorem prefix_take_iff {p path : List UInt8} (hshort : p.length ≤ pathLimit) :
    p <+: path.take pathLimit ↔ p <+: path := by
  constructor
  · intro h
    exact h.trans (List.take_prefix pathLimit path)
  · intro h
    have htake := h.take pathLimit
    rwa [List.take_of_length_le hshort] at htake

section Open

variable (inv : Invocation) (mem : UserMemory) (ptr : UInt64)

theorem pointerAt_over (offset : Nat) (hptr : inv.readAt offset = some ptr) (hnull : ptr ≠ 0) :
    (inv.over mem).pointerAt offset = some ptr := by
  have hread : (inv.over mem).readAt offset = some ptr := hptr
  unfold Invocation.pointerAt
  simp only [hread, if_neg hnull]

/-- An open is recorded with the first bytes of its path. -/
theorem openedPath_record (path : List UInt8) (hnul : 0 ∉ path) (slot : RawEvent)
    (hptr : inv.readAt 24 = some ptr) (hnull : ptr ≠ 0)
    (hheld : HoldsAt (mem.behind ptr) (path ++ [0])) :
    Terminated.read 0 (fileOpenRecord (inv.over mem) slot).payload.file.path.toList
      = path.take pathLimit := by
  rcases UserMemory.probeReadUserStr_of_holds mem ptr pathLimit path hnul hheld with
    ⟨copied, hread, hcopied⟩
  rw [← hcopied]
  exact read_path_fileOpenRecord (inv.over mem) slot ptr copied
    (pointerAt_over inv mem ptr 24 hptr hnull) hread

theorem submitted_over (slot : RawEvent) (hroom : inv.reserve = some slot) :
    (tryHandleFileOpen (inv.over mem)).submitted = some (fileOpenRecord (inv.over mem) slot) := by
  have hslot : (inv.over mem).reserve = some slot := hroom
  unfold tryHandleFileOpen
  rw [hslot]

/-- What a rule on path prefixes tests. -/
theorem matchesEvent_openRecord (glob : GlobCrate) (path : List UInt8) (hnul : 0 ∉ path)
    (slot : RawEvent) (hptr : inv.readAt 24 = some ptr) (hnull : ptr ≠ 0)
    (hheld : HoldsAt (mem.behind ptr) (path ++ [0])) (name : String) (action : RuleAction)
    (description : Option String) (prefixes : List String) (id : UInt64) :
    (pathPrefixRule name action description prefixes).matchesEvent glob
        (decoded id (fileOpenRecord (inv.over mem) slot)) = true ↔
      prefixes = [] ∨ ∃ p ∈ prefixes,
        startsWith (fromUtf8OrInvalid (path.take pathLimit)) p = true := by
  rcases decoded_fileOpenRecord (inv.over mem) slot id with ⟨_, _, ⟨flags, htype⟩, _⟩
  rw [openedPath_record inv mem ptr path hnul slot hptr hnull hheld] at htype
  -- The description of a rule plays no part in matching.
  have hbare := matchesEvent_of_path glob name action prefixes _ _ flags htype
  exact (iff_of_eq (congrArg (fun b => b = true) hbare)).trans
    (by rw [Bool.or_eq_true, List.isEmpty_iff, List.any_eq_true])

/-- A rule on path prefixes fires on the paths it should exactly when it has a
    prefix and what was copied of the path can be decoded, or the text that stands
    for it happens to match the same. -/
theorem firesOnPath_iff (glob : GlobCrate) (path : List UInt8) (hnul : 0 ∉ path) (slot : RawEvent)
    (hroom : inv.reserve = some slot) (hptr : inv.readAt 24 = some ptr) (hnull : ptr ≠ 0)
    (hheld : HoldsAt (mem.behind ptr) (path ++ [0])) (name : String) (action : RuleAction)
    (description : Option String) (prefixes : List String)
    (hshort : ∀ p ∈ prefixes, (bytes p).length ≤ pathLimit) :
    FiresOnPath glob (inv.over mem) path prefixes
        (pathPrefixRule name action description prefixes) ↔
      prefixes ≠ [] ∧ DecodesFor path prefixes := by
  have hsub := submitted_over inv mem slot hroom
  have hmatch := matchesEvent_openRecord inv mem ptr glob path hnul slot hptr hnull hheld name
    action description prefixes
  -- Prefixes this short are not cut off with the rest of the path.
  have hprefix : ∀ p ∈ prefixes, bytes p <+: path.take pathLimit ↔ bytes p <+: path :=
    fun p hp => prefix_take_iff (hshort p hp)
  unfold FiresOnPath DecodesFor
  rw [hsub]
  simp only [Option.some.injEq, exists_eq_left', parseRawEvent_eq, Except.ok.injEq, hmatch,
    forall_const]
  cases hempty : prefixes with
  | nil =>
      simp only [true_or, List.not_mem_nil, false_and, exists_false, iff_false, not_true, ne_eq]
  | cons first rest =>
      rw [← hempty]
      have hne : prefixes ≠ [] := by
        rw [hempty]
        exact List.cons_ne_nil _ _
      simp only [hne, false_or, ne_eq, not_false_eq_true, true_and]
      cases hdecode : fromUtf8 (path.take pathLimit) with
      | none =>
          -- What cannot be decoded is replaced by one text.
          simp only [fromUtf8OrInvalid, hdecode, Option.getD_none, Option.isSome_none,
            Bool.false_eq_true, false_or]
      | some s =>
          refine iff_of_true ?_ (Or.inl rfl)
          simp only [fromUtf8OrInvalid, hdecode, Option.getD_some, startsWith_iff,
            bytes_of_fromUtf8 hdecode]
          exact exists_congr (fun p => and_congr_right (fun hp => hprefix p hp))

end Open

/-- An open of a path by a shell. -/
def shOpen (path : List UInt8) : Invocation :=
  ((Invocation.bare sh 1000).passing 24 4096).over (UserMemory.ofBytes 4096 (path ++ [0]))

def shadowRule : Rule := pathPrefixRule "block-shadow" .block none ["/etc/shadow"]

/-- The rule on the shadow file fires on it. -/
theorem shadowRule_fires :
    FiresOnPath GlobCrate.literal (shOpen (bytes "/etc/shadow")) (bytes "/etc/shadow")
      ["/etc/shadow"] shadowRule := by
  refine (firesOnPath_iff ((Invocation.bare sh 1000).passing 24 4096) _ 4096 GlobCrate.literal
    (bytes "/etc/shadow") (by decide) RawEvent.zeroed rfl rfl (by decide)
    (UserMemory.holds_ofBytes _ _ (by decide)) "block-shadow" .block none ["/etc/shadow"]
    (by decide)).mpr ?_
  exact ⟨List.cons_ne_nil _ _, Or.inl (by decide)⟩

/-- The same file under a path with an invalid byte behind its name. -/
def shadowInvalid : List UInt8 := bytes "/etc/shadow/" ++ [255]

/-- The rule does not fire on such a path. -/
theorem shadowRule_misses_invalid :
    bytes "/etc/shadow" <+: shadowInvalid ∧
      ¬ FiresOnPath GlobCrate.literal (shOpen shadowInvalid) shadowInvalid ["/etc/shadow"]
        shadowRule := by
  refine ⟨by decide, ?_⟩
  intro h
  rcases h with ⟨raw, hsub, hmatch⟩
  rw [shOpen, submitted_over _ _ RawEvent.zeroed rfl, Option.some.injEq] at hsub
  subst hsub
  rcases hmatch 0 with ⟨ev, hparse, hiff⟩
  rw [parseRawEvent_eq, Except.ok.injEq] at hparse
  subst hparse
  -- The event is about another path.
  rw [shadowRule, matchesEvent_openRecord _ _ 4096 _ shadowInvalid (by decide) _ rfl (by decide)
    (UserMemory.holds_ofBytes _ _ (by decide))] at hiff
  exact absurd hiff (by decide)

end VectorGuard
