import VectorGuard.Theory.Agreement
import VectorGuard.Theory.StagedNames

/-!
# Process Names

What a block rule on process names means to the kernel.

A rule names processes by patterns. User space matches a pattern against the name
of the process. The kernel compares sixteen bytes with the pattern itself, cut and
padded to that size. For a pattern without wildcards the two are the same, whatever
its length, since a name never fills the sixteen bytes. A pattern with a wildcard
names for the kernel only the process that is called like the pattern, and so does a
pattern with a NUL in it, which the padding hides.

No warning tells these apart. It counts the characters in front of the first
wildcard, so what it warns about are long names, and these do no harm.

Apart from wildcards and NULs nothing is lost. What user space decodes from the
record of a task is the name the kernel compared, so the key of a name without NUL
finds a task exactly if that name is decoded from the task's record.

## Main definitions

* `GlobCrate.ExactOnPlain`: A pattern without wildcards matches itself only.
* `Spells`: A pattern whose first sixteen bytes are a task name.
* `NulFree`: A name without NUL.
* `IsPlain`: A pattern without wildcards and without NUL.
* `NamesCompile`: The kernel blocks the name exactly if a pattern matches it.

## Theorems

* `commKey_eq_buf_iff`: When the key of a pattern is a task name.
* `commKey_eq_buf_iff_commStr`: The key and the decoded name tell the same tasks apart.
* `commIsBlocked_iff`: When the kernel blocks a name.
* `namesCompile_iff`: When the kernel blocks what the patterns match.
-/

namespace VectorGuard

/-! ### Keys -/

/-- The first sixteen bytes of the pattern are the name, up to NULs behind it. -/
def Spells (pat : String) (c : TaskComm) : Prop :=
  ∃ k, (bytes pat).take 16 = c.name ++ List.replicate k 0

/-- A key is a task name exactly for the patterns that spell the name. -/
theorem commKey_eq_buf_iff (pat : String) (c : TaskComm) : commKey pat = c.buf ↔ Spells pat c := by
  have hshort := c.short
  have hname : c.name.take 16 = c.name := List.take_of_length_le (by omega)
  have hkey : commKey pat = c.buf ↔
      (bytes pat).take 16 ++ List.replicate (16 - (bytes pat).length) 0
        = c.name ++ List.replicate (16 - c.name.length) 0 := by
    unfold commKey TaskComm.buf
    rw [← Vector.toList_inj, Terminated.toList_pad, Terminated.toList_pad, hname]
  rw [hkey]
  constructor
  · intro h
    rcases List.append_eq_append_iff.mp h with ⟨zeros, hsplit, hzeros⟩ | ⟨zeros, hsplit, hzeros⟩
    · -- A name has no NUL, so what it has more than the pattern is nothing.
      have hnil : zeros = [] := by
        cases zeros with
        | nil =>
            rfl
        | cons z zeros =>
            have hz : z = 0 := by
              have hmem : z ∈ List.replicate (16 - (bytes pat).length) (0 : UInt8) := by
                rw [hzeros]
                exact List.mem_append_left _ List.mem_cons_self
              exact List.eq_of_mem_replicate hmem
            refine absurd ?_ c.noNul
            rw [hsplit, ← hz]
            exact List.mem_append_right _ List.mem_cons_self
      rw [hnil, List.append_nil] at hsplit
      exact ⟨0, by rw [hsplit, List.replicate_zero, List.append_nil]⟩
    · refine ⟨zeros.length, ?_⟩
      have hall : zeros = List.replicate zeros.length 0 := by
        refine List.eq_replicate_iff.mpr ⟨rfl, fun z hz => ?_⟩
        have hmem : z ∈ List.replicate (16 - c.name.length) (0 : UInt8) := by
          rw [hzeros]
          exact List.mem_append_left _ hz
        exact List.eq_of_mem_replicate hmem
      rw [hsplit, ← hall]
  · intro h
    rcases h with ⟨k, hk⟩
    have hlen := congrArg List.length hk
    rw [List.length_take, List.length_append, List.length_replicate] at hlen
    rw [hk, List.append_assoc, List.replicate_append_replicate]
    congr 2
    omega

/-- A pattern without NUL spells the name that it is. -/
theorem spells_iff_of_noNul {pat : String} (hnul : 0 ∉ bytes pat) {c : TaskComm} {name : String}
    (hname : bytes name = c.name) : Spells pat c ↔ pat = name := by
  have hshort := c.short
  constructor
  · intro h
    rcases h with ⟨k, hk⟩
    have hzero : k = 0 := by
      cases k with
      | zero =>
          rfl
      | succ k =>
          refine absurd ?_ hnul
          refine List.mem_of_mem_take (i := 16) ?_
          rw [hk]
          exact List.mem_append_right _ (List.mem_replicate.mpr ⟨Nat.succ_ne_zero k, rfl⟩)
    rw [hzero, List.replicate_zero, List.append_nil] at hk
    -- The name leaves room in the key, so nothing of the pattern was cut.
    have hlen := congrArg List.length hk
    rw [List.length_take] at hlen
    rw [List.take_of_length_le (by omega)] at hk
    exact bytes_inj (hk.trans hname.symm)
  · intro h
    subst h
    refine ⟨0, ?_⟩
    rw [hname, List.take_of_length_le (by omega), List.replicate_zero, List.append_nil]

/-- No character of the name is NUL. -/
def NulFree (name : String) : Prop := '\x00' ∉ name.toList

instance (name : String) : Decidable (NulFree name) := inferInstanceAs (Decidable (¬ _))

theorem NulFree.bytes {name : String} (h : NulFree name) : 0 ∉ bytes name :=
  fun hzero => h (mem_toList_of_mem_bytes rfl (by decide) hzero)

/-- The key and the decoded name tell the same tasks apart: a name without NUL has
    the key of a task exactly if it is the name decoded from the task's record.
    Then it has at most fifteen bytes, and of these no two have the same key. -/
theorem commKey_eq_buf_iff_commStr (a : String) (ha : NulFree a) :
    (∀ (c : TaskComm) (name : String) (event : RawEvent), bytes name = c.name →
      (commKey a = c.buf ↔ (fillComm event c.buf).commStr = a)) ∧
    (16 ≤ (bytes a).length → ∀ (c : TaskComm) (name : String) (event : RawEvent),
      bytes name = c.name → commKey a ≠ c.buf ∧ (fillComm event c.buf).commStr ≠ a) ∧
    ∀ b, NulFree b → (bytes a).length ≤ 15 → (bytes b).length ≤ 15 →
      (commKey a = commKey b ↔ a = b) := by
  have hdecoded : ∀ (c : TaskComm) (name : String) (event : RawEvent), bytes name = c.name →
      (fillComm event c.buf).commStr = name := by
    intro c name event hname
    unfold RawEvent.commStr fillComm
    rw [read_comm_buf, ← hname, fromUtf8OrInvalid_bytes]
  have hiff : ∀ (c : TaskComm) (name : String) (event : RawEvent), bytes name = c.name →
      (commKey a = c.buf ↔ (fillComm event c.buf).commStr = a) := by
    intro c name event hname
    rw [commKey_eq_buf_iff, spells_iff_of_noNul ha.bytes hname, hdecoded c name event hname]
    exact eq_comm
  refine ⟨hiff, ?_, ?_⟩
  · intro hlong c name event hname
    have hne : (fillComm event c.buf).commStr ≠ a := by
      intro h
      rw [hdecoded c name event hname] at h
      have hshort := c.short
      rw [← hname, h] at hshort
      omega
    exact ⟨fun hkey => hne ((hiff c name event hname).mp hkey), hne⟩
  · intro b hb hashort hbshort
    constructor
    · -- A name that is short enough is a task name, and its key is the task's.
      intro hkey
      exact (spells_iff_of_noNul ha.bytes (c := ⟨bytes b, hb.bytes, hbshort⟩) rfl).mp
        ((commKey_eq_buf_iff a _).mp hkey)
    · intro h
      rw [h]

/-- A task whose name was cut at fifteen bytes. -/
def systemdResolve : TaskComm := ⟨bytes "systemd-resolve", by decide, by decide⟩

/-- The uncut name is nobody's, neither in the kernel nor in a decoded event. -/
theorem systemdResolved_commKey :
    commKey "systemd-resolved" ≠ systemdResolve.buf ∧
      (fillComm RawEvent.zeroed systemdResolve.buf).commStr ≠ "systemd-resolved" :=
  (commKey_eq_buf_iff_commStr "systemd-resolved" (by decide)).2.1 (by decide) systemdResolve
    "systemd-resolve" RawEvent.zeroed rfl

/-- A pattern without wildcards and without NUL. -/
def IsPlain (pat : String) : Bool :=
  pat.toList.all (fun c => !FastPath.isWildcard c && c != '\x00')

/-- A plain pattern spells the name that it is. -/
theorem spells_iff_of_isPlain {pat : String} (hplain : IsPlain pat = true) {c : TaskComm}
    {name : String} (hname : bytes name = c.name) : Spells pat c ↔ pat = name := by
  refine spells_iff_of_noNul (NulFree.bytes (fun hmem => ?_)) hname
  have hchar := List.all_eq_true.mp hplain '\x00' hmem
  exact absurd hchar (by decide)

/-! ### Patterns -/

/-- A pattern without wildcards compiles and matches itself only. -/
def GlobCrate.ExactOnPlain (glob : GlobCrate) : Prop :=
  ∀ pat, (∀ c ∈ pat.toList, FastPath.isWildcard c = false) →
    ∀ s, glob.hit pat s = true ↔ pat = s

theorem starMatch_of_noWildcard (ps cs : List Char)
    (h : ∀ c ∈ ps, FastPath.isWildcard c = false) : starMatch ps cs = true ↔ ps = cs := by
  induction ps generalizing cs with
  | nil =>
      unfold starMatch
      rw [List.isEmpty_iff]
      exact eq_comm
  | cons p ps ih =>
      have hp := h p List.mem_cons_self
      have hps := fun cs => ih cs (fun c hc => h c (List.mem_cons_of_mem p hc))
      simp only [FastPath.isWildcard, Bool.or_eq_false_iff, beq_eq_false_iff_ne] at hp
      rcases hp with ⟨⟨hstar, hquestion⟩, _⟩
      unfold starMatch
      rw [if_neg hstar]
      cases cs with
      | nil =>
          simp only [Bool.false_eq_true, reduceCtorEq]
      | cons c cs =>
          simp only [beq_eq_false_iff_ne.mpr hquestion, Bool.false_or, Bool.and_eq_true,
            beq_iff_eq, hps, List.cons.injEq]

theorem exactOnPlain_starred : GlobCrate.starred.ExactOnPlain := by
  intro pat hpat s
  have hbracket : '[' ∉ pat.toList := fun hmem => absurd (hpat '[' hmem) (by decide)
  unfold GlobCrate.hit
  simp only [GlobCrate.starred, if_neg hbracket]
  rw [starMatch_of_noWildcard _ _ hpat, String.toList_inj]

/-- The rule blocks, and its only condition is a list of process names. -/
def BlocksByName (r : Rule) : Prop :=
  r.action = .block ∧ r.matchPathPrefix = [] ∧ r.matchExecPath = [] ∧ r.matchPort = [] ∧
    r.matchUid = none

instance (r : Rule) : Decidable (BlocksByName r) := inferInstanceAs (Decidable (_ ∧ _))

/-- The patterns of a rule list. -/
def patternsOf (rules : List Rule) : List String := rules.flatMap Rule.matchProcess

/-- After a load, the kernel blocks the name exactly if a pattern of a rule
    matches it. -/
def NamesCompile (glob : GlobCrate) (prior : BlockMaps) (rules : List Rule) (c : TaskComm) : Prop :=
  commIsBlocked (loadRules prior rules).1 c.buf = true ↔
    ∃ r ∈ rules, ∃ pat ∈ r.matchProcess, glob.hit pat c.str = true

section Compile

variable (prior : BlockMaps) (rules : List Rule) (hnames : ∀ r ∈ rules, BlocksByName r)
  (hfit : (computeBlockKeys rules).Fit) (c : TaskComm)
include hnames hfit

/-- The kernel blocks the names that some pattern spells. -/
theorem commIsBlocked_iff :
    commIsBlocked (loadRules prior rules).1 c.buf = true ↔
      ∃ pat ∈ patternsOf rules, Spells pat c := by
  have hheld := (holdsExactly_of_fit prior rules hfit).1 c.buf
  unfold commIsBlocked patternsOf
  rw [BoundedMap.isSome_get?, hheld]
  simp only [computeBlockKeys, List.mem_flatMap, List.mem_filter, decide_eq_true_eq, List.mem_map,
    ← commKey_eq_buf_iff]
  constructor
  · intro h
    rcases h with ⟨r, ⟨hr, _⟩, pat, hpat, hkey⟩
    exact ⟨pat, ⟨r, hr, hpat⟩, hkey⟩
  · intro h
    rcases h with ⟨pat, ⟨r, hr, hpat⟩, hkey⟩
    exact ⟨r, ⟨hr, (hnames r hr).1⟩, pat, hpat, hkey⟩

/-- The kernel blocks what the patterns match exactly when the name is one of the
    plain patterns, or some other pattern spells the name if and only if some other
    pattern matches it. -/
theorem namesCompile_iff (glob : GlobCrate) (hglob : glob.ExactOnPlain) (name : String)
    (hname : bytes name = c.name) :
    NamesCompile glob prior rules c ↔
      (∃ pat ∈ patternsOf rules, IsPlain pat = true ∧ pat = name) ∨
        ((∃ pat ∈ patternsOf rules, IsPlain pat = false ∧ Spells pat c) ↔
          ∃ pat ∈ patternsOf rules, IsPlain pat = false ∧ glob.hit pat name = true) := by
  have hstr : c.str = name := by
    unfold TaskComm.str
    rw [← hname, fromUtf8OrInvalid_bytes]
  have hmatched : (∃ r ∈ rules, ∃ pat ∈ r.matchProcess, glob.hit pat name = true) ↔
      ∃ pat ∈ patternsOf rules, glob.hit pat name = true := by
    unfold patternsOf
    simp only [List.mem_flatMap]
    constructor
    · intro h
      rcases h with ⟨r, hr, pat, hpat, hhit⟩
      exact ⟨pat, ⟨r, hr, hpat⟩, hhit⟩
    · intro h
      rcases h with ⟨pat, ⟨r, hr, hpat⟩, hhit⟩
      exact ⟨r, hr, pat, hpat, hhit⟩
  have hhit : ∀ pat, IsPlain pat = true → (glob.hit pat name = true ↔ pat = name) := by
    intro pat hplain
    refine hglob pat (fun ch hch => ?_) name
    have hchar := List.all_eq_true.mp hplain ch hch
    rw [Bool.and_eq_true, Bool.not_eq_true'] at hchar
    exact hchar.1
  -- A plain pattern counts the same on both sides.
  have hsplit : ∀ P : String → Prop, (∀ pat, IsPlain pat = true → (P pat ↔ pat = name)) →
      ((∃ pat ∈ patternsOf rules, P pat) ↔
        (∃ pat ∈ patternsOf rules, IsPlain pat = true ∧ pat = name) ∨
          ∃ pat ∈ patternsOf rules, IsPlain pat = false ∧ P pat) := by
    intro P hP
    constructor
    · intro h
      rcases h with ⟨pat, hpat, hp⟩
      cases hplain : IsPlain pat with
      | true => exact Or.inl ⟨pat, hpat, hplain, (hP pat hplain).mp hp⟩
      | false => exact Or.inr ⟨pat, hpat, hplain, hp⟩
    · intro h
      rcases h with ⟨pat, hpat, hplain, heq⟩ | ⟨pat, hpat, _, hp⟩
      · exact ⟨pat, hpat, (hP pat hplain).mpr heq⟩
      · exact ⟨pat, hpat, hp⟩
  unfold NamesCompile
  rw [commIsBlocked_iff prior rules hnames hfit c, hstr, hmatched,
    hsplit (fun pat => Spells pat c) (fun pat hplain => spells_iff_of_isPlain hplain hname),
    hsplit (fun pat => glob.hit pat name = true) hhit]
  by_cases hlisted : ∃ pat ∈ patternsOf rules, IsPlain pat = true ∧ pat = name
  · simp only [hlisted, true_or]
  · simp only [hlisted, false_or]

end Compile

/-- A rule that blocks the given process names. -/
def nameRule (patterns : List String) : Rule :=
  { Rule.bare "block-names" .block with matchProcess := patterns }

/-- A plain name is blocked and matched. -/
theorem python3_namesCompile :
    NamesCompile GlobCrate.starred BlockMaps.empty [nameRule ["python3"]] python3 := by
  refine (namesCompile_iff BlockMaps.empty [nameRule ["python3"]] (by decide) (by decide) python3
    GlobCrate.starred exactOnPlain_starred "python3" rfl).mpr ?_
  exact Or.inl ⟨"python3", List.mem_singleton_self _, by decide, rfl⟩

/-- Without any warning, a star leaves the names it matches unblocked. -/
theorem pyStar_not_namesCompile :
    FastPath.nameWarnings [nameRule ["py*"]] = [] ∧ BlocksByName (nameRule ["py*"]) ∧
      (computeBlockKeys [nameRule ["py*"]]).Fit ∧
      ¬ NamesCompile GlobCrate.starred BlockMaps.empty [nameRule ["py*"]] python3 := by
  refine ⟨by decide, by decide, by decide, ?_⟩
  intro h
  have hhit : GlobCrate.starred.hit "py*" python3.str = true := by
    have hstr : python3.str = "python3" := fromUtf8OrInvalid_bytes "python3"
    rw [hstr]
    decide
  have hblocked := h.mpr ⟨_, List.mem_singleton_self _, "py*", List.mem_singleton_self _, hhit⟩
  rw [commIsBlocked_iff _ _ (by decide) (by decide)] at hblocked
  rcases hblocked with ⟨pat, hpat, k, hk⟩
  have hpy : pat = "py*" := List.mem_singleton.mp hpat
  subst hpy
  have hlen := congrArg List.length hk
  rw [List.length_append] at hlen
  have hname : python3.name.length = 7 := by decide
  have hkey : ((bytes "py*").take 16).length = 3 := by decide
  omega

end VectorGuard
