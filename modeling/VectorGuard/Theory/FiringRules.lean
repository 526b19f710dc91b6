import VectorGuard.Theory.OpenedPaths
import VectorGuard.Theory.ProcessNames

/-!
# Rules That Can Fire

Which rules some event matches.

A rule is loaded whatever its conditions are. Three of them ask for an event of a
certain type, and no event has two types, so a rule with two of the three never fires.
Two of them are about the same string, the name of the process: a list of globs, and a
list of prefixes that are meant for the path of an executable. A rule with both fires
only on a name that one of the globs matches and that starts with one of the prefixes.
Globs without wildcards, such as those of the rules that come with the program, match
names without a slash, which start with the path of no executable.

## Main definitions

* `CanFire`: Some event matches the rule.
* `OneEventType`: At most one condition asks for an event type.
* `OneName`: Some name meets both conditions on it.

## Theorems

* `canFire_iff`: When a rule can fire.
* `oneName_iff_of_plain`: The condition on names for globs without wildcards.
* `serviceShellRules_not_canFire`, `sshKeyRule_never_fires`: Rules that come with the
  program and cannot.
-/

namespace VectorGuard

/-- Some event matches the rule. -/
def CanFire (glob : GlobCrate) (r : Rule) : Prop :=
  ∃ event, r.matchesEvent glob event = true

/-- At most one of the conditions asks for an event of a certain type. -/
def OneEventType (r : Rule) : Prop :=
  (r.matchPort = [] ∧ r.matchPathPrefix = []) ∨ (r.matchPort = [] ∧ r.matchExecPath = []) ∨
    (r.matchPathPrefix = [] ∧ r.matchExecPath = [])

instance (r : Rule) : Decidable (OneEventType r) := inferInstanceAs (Decidable (_ ∨ _))

/-- Some name is matched by one of the globs and starts with one of the paths, if there
    are both. -/
def OneName (glob : GlobCrate) (r : Rule) : Prop :=
  r.matchProcess = [] ∨ r.matchExecPath = [] ∨
    ∃ name, (∃ pat ∈ r.matchProcess, glob.hit pat name = true) ∧
      ∃ p ∈ r.matchExecPath, startsWith name p = true

section Filters

variable (glob : GlobCrate) (r : Rule) (event : NormalizedEvent)

theorem processFilter_iff : r.processFilter glob event = true ↔
    r.matchProcess = [] ∨ ∃ pat ∈ r.matchProcess, glob.hit pat event.process.binary = true := by
  unfold Rule.processFilter
  rw [Bool.or_eq_true, List.isEmpty_iff, List.any_eq_true]

theorem portFilter_iff : r.portFilter event = true ↔ r.matchPort = [] ∨
    ∃ direction remoteIp port proto, event.eventType = .network direction remoteIp port proto ∧
      port ∈ r.matchPort := by
  unfold Rule.portFilter
  rw [Bool.or_eq_true, List.isEmpty_iff]
  cases event.eventType <;> simp

theorem pathFilter_iff : r.pathFilter event = true ↔ r.matchPathPrefix = [] ∨
    ∃ path flags, event.eventType = .fileAccess path flags ∧
      ∃ p ∈ r.matchPathPrefix, startsWith path p = true := by
  unfold Rule.pathFilter
  rw [Bool.or_eq_true, List.isEmpty_iff]
  cases event.eventType <;> simp

theorem execPathFilter_iff : r.execPathFilter event = true ↔ r.matchExecPath = [] ∨
    event.eventType = .exec ∧ ∃ p ∈ r.matchExecPath, startsWith event.process.binary p = true := by
  unfold Rule.execPathFilter
  rw [Bool.or_eq_true, List.isEmpty_iff]
  cases event.eventType <;> simp

end Filters

/-- An event that the conditions of a rule leave open but for four things. -/
def eventWith (binary : String) (uid : UInt32) (eventType : EventType) : NormalizedEvent :=
  let event := NormalizedEvent.plainExec binary
  { event with process := { event.process with uid }, eventType }

theorem startsWith_self (s : String) : startsWith s s = true :=
  (startsWith_iff s s).mpr List.prefix_rfl

variable {glob : GlobCrate} {r : Rule}

/-- Some event type is the one that the conditions ask for. -/
theorem exists_eventType (h : OneEventType r) : ∃ eventType, ∀ binary uid,
    r.portFilter (eventWith binary uid eventType) = true ∧
      r.pathFilter (eventWith binary uid eventType) = true ∧
      (r.matchExecPath = [] ∨ eventType = .exec) := by
  simp only [portFilter_iff, pathFilter_iff]
  rcases h with ⟨hport, hpath⟩ | ⟨hport, hexec⟩ | ⟨hpath, hexec⟩
  · exact ⟨.exec, fun _ _ => ⟨.inl hport, .inl hpath, .inr rfl⟩⟩
  · cases hlist : r.matchPathPrefix with
    | nil => exact ⟨.exec, fun _ _ => ⟨.inl hport, .inl rfl, .inl hexec⟩⟩
    | cons p rest =>
        refine ⟨.fileAccess p ⟨true, false, false⟩, fun _ _ => ⟨.inl hport, .inr ?_, .inl hexec⟩⟩
        exact ⟨p, _, rfl, p, List.mem_cons_self, startsWith_self p⟩
  · cases hlist : r.matchPort with
    | nil => exact ⟨.exec, fun _ _ => ⟨.inl rfl, .inl hpath, .inl hexec⟩⟩
    | cons port rest =>
        refine ⟨.network .outbound (.v4 0 0 0 0) port .tcp, fun _ _ =>
          ⟨.inr ?_, .inl hpath, .inl hexec⟩⟩
        exact ⟨_, _, port, _, rfl, List.mem_cons_self⟩

/-- Some name is the one that the conditions ask for. -/
theorem exists_name (hglob : ∀ pat ∈ r.matchProcess, ∃ name, glob.hit pat name = true)
    (h : OneName glob r) :
    ∃ name, (r.matchProcess = [] ∨ ∃ pat ∈ r.matchProcess, glob.hit pat name = true) ∧
      (r.matchExecPath = [] ∨ ∃ p ∈ r.matchExecPath, startsWith name p = true) := by
  rcases h with hprocess | hexec | ⟨name, hname⟩
  · cases hlist : r.matchExecPath with
    | nil => exact ⟨"", .inl hprocess, .inl rfl⟩
    | cons p rest => exact ⟨p, .inl hprocess, .inr ⟨p, List.mem_cons_self, startsWith_self p⟩⟩
  · cases hlist : r.matchProcess with
    | nil => exact ⟨"", .inl rfl, .inl hexec⟩
    | cons pat rest =>
        rcases hglob pat (by rw [hlist]; exact List.mem_cons_self) with ⟨name, hname⟩
        exact ⟨name, .inr ⟨pat, List.mem_cons_self, hname⟩, .inl hexec⟩
  · exact ⟨name, .inr hname.1, .inr hname.2⟩

/-- Two conditions that ask for an event type would ask for the same one. -/
theorem oneEventType_of_canFire (h : CanFire glob r) : OneEventType r := by
  rcases h with ⟨event, hmatch⟩
  unfold Rule.matchesEvent at hmatch
  simp only [Bool.and_eq_true, portFilter_iff, pathFilter_iff, execPathFilter_iff] at hmatch
  rcases hmatch with ⟨⟨⟨_, hport⟩, hpath⟩, hexec⟩
  rcases hport with hport | ⟨_, _, _, _, hnet, _⟩
  · rcases hpath with hpath | ⟨_, _, hfile, _⟩
    · exact .inl ⟨hport, hpath⟩
    · rcases hexec with hexec | ⟨htype, _⟩
      · exact .inr (.inl ⟨hport, hexec⟩)
      · exact absurd (hfile.symm.trans htype) EventType.noConfusion
  · rcases hpath with hpath | ⟨_, _, hfile, _⟩
    · rcases hexec with hexec | ⟨htype, _⟩
      · exact .inr (.inr ⟨hpath, hexec⟩)
      · exact absurd (hnet.symm.trans htype) EventType.noConfusion
    · exact absurd (hnet.symm.trans hfile) EventType.noConfusion

/-- The name of the process is what both conditions on names are met by. -/
theorem oneName_of_canFire (h : CanFire glob r) : OneName glob r := by
  rcases h with ⟨event, hmatch⟩
  unfold Rule.matchesEvent at hmatch
  simp only [Bool.and_eq_true, processFilter_iff, execPathFilter_iff] at hmatch
  rcases hmatch with ⟨⟨⟨⟨hprocess, _⟩, _⟩, _⟩, hexec⟩
  rcases hprocess with hprocess | hhit
  · exact .inl hprocess
  · rcases hexec with hexec | ⟨_, hstarts⟩
    · exact .inr (.inl hexec)
    · exact .inr (.inr ⟨event.process.binary, hhit, hstarts⟩)

/-- A rule whose globs each match something can fire if and only if at most one of its
    conditions asks for an event type, and its conditions on the name agree on one. -/
theorem canFire_iff (glob : GlobCrate) (r : Rule)
    (hglob : ∀ pat ∈ r.matchProcess, ∃ name, glob.hit pat name = true) :
    CanFire glob r ↔ OneEventType r ∧ OneName glob r := by
  constructor
  · intro h
    exact ⟨oneEventType_of_canFire h, oneName_of_canFire h⟩
  · intro h
    rcases exists_eventType h.1 with ⟨eventType, htype⟩
    rcases exists_name hglob h.2 with ⟨name, hprocess, hexec⟩
    -- The event has the type, the name and the user that the conditions agree on.
    refine ⟨eventWith name (r.matchUid.getD 0) eventType, ?_⟩
    rcases htype name (r.matchUid.getD 0) with ⟨hport, hpath, hexecType⟩
    have huid : r.uidFilter (eventWith name (r.matchUid.getD 0) eventType) = true := by
      unfold Rule.uidFilter
      cases r.matchUid with
      | none => rfl
      | some uid => exact beq_self_eq_true uid
    have hprocess' : r.processFilter glob (eventWith name (r.matchUid.getD 0) eventType) = true :=
      (processFilter_iff glob r _).mpr hprocess
    have hexec' : r.execPathFilter (eventWith name (r.matchUid.getD 0) eventType) = true := by
      refine (execPathFilter_iff r _).mpr ?_
      rcases hexec with hexec | hstarts
      · exact .inl hexec
      · exact hexecType.imp_right (fun hexec => ⟨hexec, hstarts⟩)
    unfold Rule.matchesEvent
    rw [hprocess', huid, hport, hpath, hexec']
    rfl

/-- Globs without wildcards agree with the paths on a name if one of them is such a
    name. -/
theorem oneName_iff_of_plain (hexact : glob.ExactOnPlain)
    (hplain : ∀ pat ∈ r.matchProcess, ∀ c ∈ pat.toList, FastPath.isWildcard c = false) :
    OneName glob r ↔ r.matchProcess = [] ∨ r.matchExecPath = [] ∨
      ∃ pat ∈ r.matchProcess, ∃ p ∈ r.matchExecPath, startsWith pat p = true := by
  refine or_congr_right (or_congr_right ?_)
  constructor
  · intro h
    rcases h with ⟨name, ⟨pat, hpat, hhit⟩, hstarts⟩
    have hsame := (hexact pat (hplain pat hpat) name).mp hhit
    rw [← hsame] at hstarts
    exact ⟨pat, hpat, hstarts⟩
  · intro h
    rcases h with ⟨pat, hpat, hstarts⟩
    exact ⟨pat, ⟨pat, hpat, (hexact pat (hplain pat hpat) pat).mpr rfl⟩, hstarts⟩

/-- A rule on the connections of a process. -/
def nginxPortRule : Rule :=
  { Rule.bare "alert-nginx-port" .alert with matchProcess := ["nginx"], matchPort := [4444] }

theorem nginxPortRule_canFire : CanFire GlobCrate.starred nginxPortRule := by
  refine (canFire_iff GlobCrate.starred nginxPortRule (fun pat hpat => ⟨"nginx", ?_⟩)).mpr
    ⟨by decide, .inr (.inl rfl)⟩
  rw [List.mem_singleton.mp hpat]
  decide

/-! ### Rules that come with the program -/

/-- The rule on the keys of other users in the file of default rules. -/
def sshKeyRule : Rule :=
  { Rule.bare "block-ssh-key-access" .block with
    matchPathPrefix := ["/root/.ssh/", "/home/"]
    matchExecPath := ["/bin/bash", "/bin/sh", "/usr/bin/python3"] }

/-- The rules on shells of services in that file. -/
def serviceShellRules : List Rule :=
  [ { Rule.bare "alert-webserver-shell" .alert with
      matchProcess := ["nginx", "apache2", "httpd", "php-fpm"]
      matchExecPath := ["/bin/sh", "/bin/bash", "/bin/dash"] },
    { Rule.bare "alert-db-shell" .alert with
      matchProcess := ["postgres", "mysqld", "mongod"]
      matchExecPath := ["/bin/sh", "/bin/bash"] } ]

/-- No service is called like the path of a shell. -/
theorem serviceShellRules_not_canFire (hexact : glob.ExactOnPlain) (hr : r ∈ serviceShellRules) :
    ¬ CanFire glob r := by
  have hnames : ∀ r ∈ serviceShellRules, ∀ pat ∈ r.matchProcess,
      pat.toList.any FastPath.isWildcard = false := by decide
  have hplain : ∀ pat ∈ r.matchProcess, ∀ c ∈ pat.toList, FastPath.isWildcard c = false := by
    intro pat hpat c hc
    exact Bool.eq_false_iff.mpr (List.any_eq_false.mp (hnames r hr pat hpat) c hc)
  have hapart : ∀ r ∈ serviceShellRules, ¬ (r.matchProcess = [] ∨ r.matchExecPath = [] ∨
      ∃ pat ∈ r.matchProcess, ∃ p ∈ r.matchExecPath, startsWith pat p = true) := by decide
  intro h
  exact hapart r hr ((oneName_iff_of_plain hexact hplain).mp (oneName_of_canFire h))

/-- The text of a rule file that holds the rule on keys. -/
def sshKeyText : String :=
  "[[rules]]\nname   = \"block-ssh-key-access\"\naction = \"block\"\n" ++
    "match_path_prefix = [\"/root/.ssh/\", \"/home/\"]\n" ++
    "match_exec_path   = [\"/bin/bash\", \"/bin/sh\", \"/usr/bin/python3\"]\n"

/-- A rule that is loaded from a file and that no event matches. -/
theorem sshKeyRule_never_fires :
    ¬ ∀ (glob : GlobCrate) (fromStr : String → Option RuleSet)
      (listing : Option (List (Option DirEntry))) (r : Rule),
      r ∈ (RuleSet.loadDir fromStr listing).rules →
        (∀ pat ∈ r.matchProcess, ∃ name, glob.hit pat name = true) → CanFire glob r := by
  intro hall
  have h := hall GlobCrate.starred
    (fun text => if text = sshKeyText then some ⟨[sshKeyRule]⟩ else none)
    (some [some ⟨bytes "default.toml", some sshKeyText⟩]) sshKeyRule (by decide +kernel)
    (fun pat hpat => absurd hpat List.not_mem_nil)
  exact absurd (oneEventType_of_canFire h) (by decide)

end VectorGuard
