import VectorGuard.Theory.ListingOrder
import VectorGuard.Theory.StagedListing

/-!
# Whitelisting

When the answer of a language model can whitelist an event.

The prompt asks for rules that block, alert or log, and nothing looks at what
comes back: a rule that allows is staged like any other. In automatic mode it is
read with the operator's rules from then on, and since the order in which a
directory is listed is anyone's guess, it may be the first that matches an event
that was blocked or alerted before. So may a rule of the operator that allows,
with or without an answer.

An event is whitelisted exactly in these ways: by a file of the directory that no
answer has written over and that decides to allow it, and by a proposal that
allows it and is the last one under its name.

## Main definitions

* `NeverWhitelists`: No event that was blocked or alerted is allowed.
* `FileAllows`, `ProposalAllows`: The two ways to whitelist an event.
* `AiAdvisor.proposals`: What an answer has staged.

## Theorems

* `allowedIn_iff`: When some listing of a directory allows an event.
* `allowedIn_stageRules_iff`: When one does after rules were staged.
* `neverWhitelists_iff`: When an answer whitelists nothing.
-/

namespace VectorGuard

open FileTree

variable (glob : GlobCrate) (fromStr : String → Option RuleSet)

/-- An order in which the entries of a directory may be listed. -/
def ListedAs (fs : FileTree) (dir : String) (listing : Option (List (Option DirEntry))) : Prop :=
  match rulesListing fs dir, listing with
  | some entries, some l => l.Perm entries
  | none, none => True
  | _, _ => False

/-- What the rules of a listing make of an event. -/
def verdict (listing : Option (List (Option DirEntry))) (ev : NormalizedEvent) : Option Action :=
  ((RuleSet.loadDir fromStr listing).evaluate glob ev).map Prod.fst

/-- Some listing of a directory blocks an event, or alerts on it. -/
def DeniedIn (fs : FileTree) (dir : String) (ev : NormalizedEvent) : Prop :=
  ∃ listing, ListedAs fs dir listing ∧
    (verdict glob fromStr listing ev = some .blocked ∨
      verdict glob fromStr listing ev = some .alerted)

/-- Some listing of a directory allows an event. -/
def AllowedIn (fs : FileTree) (dir : String) (ev : NormalizedEvent) : Prop :=
  ∃ listing, ListedAs fs dir listing ∧ verdict glob fromStr listing ev = some .allowed

/-- In whatever orders a directory is listed before and after, no event that was
    blocked or alerted on before is allowed after. -/
def NeverWhitelists (dir : String) (fs fs' : FileTree) : Prop :=
  ∀ before after, ListedAs fs dir before → ListedAs fs' dir after → ∀ ev,
    (verdict glob fromStr before ev = some .blocked ∨
      verdict glob fromStr before ev = some .alerted) →
    verdict glob fromStr after ev ≠ some .allowed

theorem neverWhitelists_iff_allowedIn (dir : String) (fs fs' : FileTree) :
    NeverWhitelists glob fromStr dir fs fs' ↔
      ∀ ev, DeniedIn glob fromStr fs dir ev → ¬ AllowedIn glob fromStr fs' dir ev := by
  constructor
  · rintro h ev ⟨before, hbefore, hdenied⟩ ⟨after, hafter, hallowed⟩
    exact h before after hbefore hafter ev hdenied hallowed
  · intro h before after hbefore hafter ev hdenied hallowed
    exact h ev ⟨before, hbefore, hdenied⟩ ⟨after, hafter, hallowed⟩

/-- A rule set allows an event when the rule that decides it does. -/
theorem verdict_eq_allowed_iff (listing : Option (List (Option DirEntry))) (ev : NormalizedEvent) :
    verdict glob fromStr listing ev = some .allowed ↔
      ∃ r, (RuleSet.loadDir fromStr listing).rules.find? (fun r => r.matchesEvent glob ev) = some r ∧
        r.action = .allow := by
  unfold verdict RuleSet.evaluate
  rw [Option.map_map, Option.map_eq_some_iff]
  simp only [Function.comp_apply]
  refine exists_congr (fun r => and_congr_right (fun _ => ?_))
  exact ⟨fun h => toAction_inj r.action .allow h, fun h => by rw [h]; rfl⟩

theorem action_of_mem_builtinRules {r : Rule} (h : r ∈ builtinRules) : r.action ≠ .allow := by
  unfold builtinRules at h
  simp only [List.mem_cons, List.not_mem_nil, or_false] at h
  rcases h with rfl | rfl | rfl | rfl <;> exact fun hallow => RuleAction.noConfusion hallow

variable {glob fromStr}

/-- Some listing of a directory allows an event exactly when a rule file in it does
    by itself. -/
theorem allowedIn_iff (fs : FileTree) (dir : String) (ev : NormalizedEvent) :
    AllowedIn glob fromStr fs dir ev ↔
      ∃ path n text r, fs.resolve dir = some path ∧ fs.entry path = some .dir ∧
        held fs path n = some text ∧
        (DirEntry.rules fromStr ⟨bytes n, text⟩).find? (fun r => r.matchesEvent glob ev) = some r ∧
        r.action = .allow := by
  constructor
  · rintro ⟨listing, hlisted, hallowed⟩
    rcases (verdict_eq_allowed_iff glob fromStr listing ev).mp hallowed with ⟨r, hfind, hallow⟩
    unfold ListedAs at hlisted
    cases listing with
    | none =>
        -- Without a directory the built-in rules decide, and none of them allows.
        have hmem : r ∈ builtinRules := List.mem_of_find?_eq_some hfind
        exact absurd hallow (action_of_mem_builtinRules hmem)
    | some l =>
        cases hentries : rulesListing fs dir with
        | none =>
            rw [hentries] at hlisted
            exact absurd hlisted id
        | some entries =>
            rw [hentries] at hlisted
            rcases (rulesListing_eq_some_iff entries).mp hentries with ⟨path, names, hpath, hread, rfl⟩
            rw [rules_loadDir] at hfind
            split at hfind
            · exact absurd hallow (action_of_mem_builtinRules (List.mem_of_find?_eq_some hfind))
            · rcases FirstMatch.exists_find?_of_flatMap (entryRules fromStr) _ l r hfind
                with ⟨e, he, hdecides⟩
              rcases (mem_map_readEntry_iff hread e).mp (hlisted.mem_iff.mp he)
                with ⟨n, text, hheld, rfl⟩
              exact ⟨path, n, text, r, hpath, isDir_of_readDir hread, hheld, hdecides, hallow⟩
  · rintro ⟨path, n, text, r, hpath, hdir, hheld, hdecides, hallow⟩
    rcases readDir_isSome hdir with ⟨names, hread⟩
    have hlisting := (rulesListing_eq_some_iff _).mpr ⟨path, names, hpath, hread, rfl⟩
    have hmem := (mem_map_readEntry_iff hread (some ⟨bytes n, text⟩)).mpr ⟨n, text, hheld, rfl⟩
    -- The file is listed first.
    rcases List.append_of_mem hmem with ⟨front, back, hsplit⟩
    refine ⟨some (some ⟨bytes n, text⟩ :: (front ++ back)), ?_, ?_⟩
    · unfold ListedAs
      rw [hlisting, hsplit]
      exact List.perm_middle.symm
    · have hfind := FirstMatch.find?_flatMap_cons (entryRules fromStr) _
        (some ⟨bytes n, text⟩) (front ++ back) r hdecides
      refine (verdict_eq_allowed_iff glob fromStr _ ev).mpr ⟨r, ?_, hallow⟩
      rw [rules_loadDir, if_neg]
      · exact hfind
      · intro hnil
        rw [hnil] at hfind
        exact absurd hfind (by simp)

/-! ### After an answer -/

section Staged

variable (toText : RuleSet → Option String)

/-- The name of the file a rule is staged into. -/
def approvedName (c : Nat × Rule) : String := "ai-approved-" ++ stagedId c ++ ".toml"

/-- What is written into it, none when the system does not take the name. -/
def approvedText (sys : System) (path : Path) : Nat × Rule → Option String :=
  textAt toText (fun id => "ai-approved-" ++ id ++ ".toml") sys path

/-- The tree in which the first of some calls writes. -/
def openedFor (fs : FileTree) (dir : String) (calls : List (Nat × Rule)) : FileTree :=
  if calls.isEmpty then fs else (fs.createDirAll dir).1

variable (glob fromStr) in
/-- A rule file that no call writes over decides to allow an event. -/
def FileAllows (fs : FileTree) (dir : String) (calls : List (Nat × Rule)) (ev : NormalizedEvent) :
    Prop :=
  ∃ path n text r, fs.resolve dir = some path ∧ fs.entry path = some .dir ∧
    held fs path n = some (some text) ∧
    (∀ c ∈ calls, ¬ Names (approvedText toText fs.sys path) approvedName c n) ∧
    (DirEntry.rules fromStr ⟨bytes n, some text⟩).find? (fun r => r.matchesEvent glob ev) = some r ∧
    r.action = .allow

variable (glob) in
/-- A proposal that allows an event is the last one under its name, which no
    directory has. -/
def ProposalAllows (fs : FileTree) (dir : String) (calls : List (Nat × Rule))
    (ev : NormalizedEvent) : Prop :=
  ∃ path n c, fs.resolve dir = some path ∧ fs.entry path = some .dir ∧
    held fs path n ≠ some none ∧
    LastNamed (approvedText toText fs.sys path) approvedName calls n c ∧
    c.2.action = .allow ∧ c.2.matchesEvent glob ev = true

variable {toText} {store : ApprovalStore} {fs : FileTree}

/-- A file with one rule decides an event by that rule. -/
theorem find?_rules_of_staged {c : Nat × Rule} {body : String}
    (hround : fromStr (ruleHeader ++ body) = some ⟨[c.2]⟩) (p : Rule → Bool) (r : Rule) :
    (DirEntry.rules fromStr ⟨bytes (approvedName c), some (ruleHeader ++ body)⟩).find? p = some r ↔
      c.2 = r ∧ p r = true := by
  unfold approvedName
  rw [rules_approved hround, List.find?_singleton]
  split
  · next hp =>
      constructor
      · intro h
        have hsame := Option.some.inj h
        exact ⟨hsame, hsame ▸ hp⟩
      · rintro ⟨hsame, _⟩
        rw [hsame]
  · next hp =>
      constructor
      · intro h
        exact absurd h (by simp)
      · rintro ⟨rfl, hr⟩
        exact absurd hr hp

/-- What a directory allows once texts were put into it. -/
theorem allowedIn_iff_of_held {fs₁ : FileTree} {dir : String} {path : Path}
    (hround : ∀ rule text, toText ⟨[rule]⟩ = some text → fromStr (ruleHeader ++ text) = some ⟨[rule]⟩)
    {calls : List (Nat × Rule)} (ev : NormalizedEvent)
    (hpath : fs.resolve dir = some path) (hdir : fs.entry path = some .dir)
    (hpath₁ : fs₁.resolve dir = some path) (hdir₁ : fs₁.entry path = some .dir)
    (hheld : held fs path =
      calls.foldl (put (approvedText toText fs₁.sys path) approvedName) (held fs₁ path)) :
    AllowedIn glob fromStr fs dir ev ↔
      FileAllows glob fromStr toText fs₁ dir calls ev ∨ ProposalAllows glob toText fs₁ dir calls ev := by
  rw [allowedIn_iff]
  constructor
  · rintro ⟨path', n, content, r, hpath', _, hn, hdecides, hallow⟩
    rw [← Option.some.inj (hpath.symm.trans hpath'), hheld] at hn
    cases content with
    | none =>
        -- A directory has no rules.
        have hnone : DirEntry.rules fromStr ⟨bytes n, none⟩ = [] := by
          unfold DirEntry.rules
          split <;> rfl
        rw [hnone] at hdecides
        exact absurd hdecides (by simp)
    | some text =>
        rcases (foldl_put_eq_some_iff calls n text).mp hn with ⟨hold, hkept⟩ |
          ⟨hfile, c, hlast, body, hbody, rfl⟩
        · exact .inl ⟨path, n, text, r, hpath₁, hdir₁, hold, hkept, hdecides, hallow⟩
        · have hname : approvedName c = n := by
            rcases hlast with ⟨_, _, _, hnames, _⟩
            exact hnames.1
          rw [← hname] at hdecides
          have htext := (textAt_eq_some_iff.mp hbody).2
          rcases (find?_rules_of_staged (hround c.2 body htext) _ r).mp hdecides with ⟨rfl, hmatches⟩
          exact .inr ⟨path, n, c, hpath₁, hdir₁, hfile, hlast, hallow, hmatches⟩
  · rintro (⟨path', n, text, r, hpath', _, hn, hkept, hdecides, hallow⟩ |
      ⟨path', n, c, hpath', _, hfile, hlast, hallow, hmatches⟩)
    · rw [← Option.some.inj (hpath₁.symm.trans hpath')] at hn hkept
      refine ⟨path, n, some text, r, hpath, hdir, ?_, hdecides, hallow⟩
      rw [hheld]
      exact (foldl_put_eq_some_iff calls n text).mpr (.inl ⟨hn, hkept⟩)
    · rw [← Option.some.inj (hpath₁.symm.trans hpath')] at hfile hlast
      have hnames : Names (approvedText toText fs₁.sys path) approvedName c n := by
        rcases hlast with ⟨_, _, _, hnames, _⟩
        exact hnames
      rcases Option.ne_none_iff_exists'.mp hnames.2 with ⟨body, hbody⟩
      refine ⟨path, n, some (ruleHeader ++ body), c.2, hpath, hdir, ?_, ?_, hallow⟩
      · rw [hheld]
        exact (foldl_put_eq_some_iff calls n _).mpr (.inr ⟨hfile, c, hlast, body, hbody, rfl⟩)
      · rw [← hnames.1]
        have htext := (textAt_eq_some_iff.mp hbody).2
        exact (find?_rules_of_staged (hround c.2 body htext) _ _).mpr ⟨rfl, hmatches⟩

/-- Where no directory is, neither way is open. -/
theorem allowedIn_iff_of_noDir {fs₁ : FileTree} {dir : String}
    (h : ∀ path, fs.resolve dir = some path → fs.entry path ≠ some .dir)
    (h₁ : ∀ path, fs₁.resolve dir = some path → fs₁.entry path ≠ some .dir)
    (calls : List (Nat × Rule)) (ev : NormalizedEvent) :
    AllowedIn glob fromStr fs dir ev ↔
      FileAllows glob fromStr toText fs₁ dir calls ev ∨ ProposalAllows glob toText fs₁ dir calls ev := by
  rw [allowedIn_iff]
  constructor
  · rintro ⟨path, _, _, _, hpath, hdir, _⟩
    exact absurd hdir (h path hpath)
  · rintro (⟨path, _, _, _, hpath, hdir, _⟩ | ⟨path, _, _, hpath, hdir, _⟩)
    · exact absurd hdir (h₁ path hpath)
    · exact absurd hdir (h₁ path hpath)

/-- A directory in which rules were staged allows an event exactly in one of the
    two ways. -/
theorem allowedIn_stageRules_iff (hwell : WellFormed fs)
    (hround : ∀ rule text, toText ⟨[rule]⟩ = some text → fromStr (ruleHeader ++ text) = some ⟨[rule]⟩)
    (calls : List (Nat × Rule)) (ev : NormalizedEvent) :
    AllowedIn glob fromStr (stageRules (store.stageAuto toText) fs calls) store.approvedDir ev ↔
      FileAllows glob fromStr toText (openedFor fs store.approvedDir calls) store.approvedDir calls ev ∨
      ProposalAllows glob toText (openedFor fs store.approvedDir calls) store.approvedDir calls ev := by
  cases calls with
  | nil =>
      have hnothing : stageRules (store.stageAuto toText) fs [] = fs := rfl
      have hopened : openedFor fs store.approvedDir [] = fs := rfl
      rw [hnothing, hopened]
      by_cases hdir : ∃ path, fs.resolve store.approvedDir = some path ∧ fs.entry path = some .dir
      · rcases hdir with ⟨path, hpath, hdir⟩
        exact allowedIn_iff_of_held hround ev hpath hdir hpath hdir rfl
      · have hnone : ∀ path, fs.resolve store.approvedDir = some path →
            fs.entry path ≠ some .dir := fun path hpath hentry => hdir ⟨path, hpath, hentry⟩
        exact allowedIn_iff_of_noDir hnone hnone [] ev
  | cons c rest =>
      let name : String → String := fun id => "ai-approved-" ++ id ++ ".toml"
      have hname : ∀ c : Nat × Rule, IsName (name (stagedId c)) :=
        fun c => isName_approved c.1 c.2.name
      have hcall : store.stageAuto toText = stageTo toText store.approvedDir name := rfl
      have hopened : openedFor fs store.approvedDir (c :: rest) =
          (fs.createDirAll store.approvedDir).1 := rfl
      rw [hcall, hopened]
      cases hcreated : fs.createDirAll store.approvedDir with
      | mk fs₁ ok =>
          cases ok with
          | false =>
              -- Nothing is staged, and there is no directory to list.
              rw [stageRules_of_failed hcreated]
              have hnone : ∀ path, fs₁.resolve store.approvedDir = some path →
                  fs₁.entry path ≠ some .dir := by
                intro path hpath hdir
                have hok := createDirAll_of_resolve hpath hdir
                rw [createDirAll_of_failed hcreated] at hok
                exact absurd (congrArg Prod.snd hok) (by simp)
              exact allowedIn_iff_of_noDir hnone hnone _ ev
          | true =>
              by_cases hempty : store.approvedDir = ""
              · -- The rules are written, but nothing is ever listed.
                rw [hempty]
                exact allowedIn_iff_of_noDir (fun _ h => absurd h (by simp [resolve]))
                  (fun _ h => absurd h (by simp [resolve])) _ ev
              have hok : (fs.createDirAll store.approvedDir).2 = true := by rw [hcreated]
              have hwell₁ := hwell.createDirAll store.approvedDir
              rcases resolve_createDirAll hempty hok with ⟨path, hpath, hdir⟩
              rw [hcreated] at hwell₁ hpath hdir
              rw [stageRules_created hcreated]
              have hstaged := @held_stageRules toText store.approvedDir name fs₁ path hwell₁ hname
                (fs₁.place_of_resolve hpath) hdir (c :: rest)
              have hpath' := (place_of_ne_empty _ hempty).symm.trans hstaged.1
              exact allowedIn_iff_of_held hround ev hpath' hstaged.2.1 hpath hdir hstaged.2.2

end Staged

/-! ### The advisor -/

section Advisor

variable (toText : RuleSet → Option String)

/-- The rules an event has staged, each with its clock reading: none unless the
    event makes the advisor ask. -/
def AiAdvisor.proposals (fromStr : String → Option RuleSet) (adv : AiAdvisor)
    (env : String → Option String) (response : Option Value) (now : Nat) (clock : Nat → Nat)
    (event : NormalizedEvent) : List (Nat × Rule) :=
  match (adv.gate now event).2, adv.resolveApiKey env with
  | .passed _ _ _, some _ =>
    (proposedRules fromStr adv.cfg.provider adv.cfg.maxRulesPerFire response).zipIdx.map
      (fun (rule, i) => (clock i, rule))
  | _, _ => []

/-- The gate changes what the advisor remembers and not how it is set up. -/
theorem gate_setup (adv : AiAdvisor) (now : Nat) (event : NormalizedEvent) :
    (adv.gate now event).1.cfg = adv.cfg ∧ (adv.gate now event).1.store = adv.store := by
  unfold AiAdvisor.gate
  split
  · exact ⟨rfl, rfl⟩
  · split
    · exact ⟨rfl, rfl⟩
    · split
      · exact ⟨rfl, rfl⟩
      · simp only
        split
        · exact ⟨rfl, rfl⟩
        · split
          · split <;> exact ⟨rfl, rfl⟩
          · exact ⟨rfl, rfl⟩

theorem analyze_snd (adv : AiAdvisor) (env : String → Option String) (response : Option Value)
    (fs : FileTree) (now : Nat) (clock : Nat → Nat) (event : NormalizedEvent) :
    (adv.analyze toText fromStr env response fs now clock event).2 =
      stageRules (adv.store.stageCall toText adv.cfg.approvalMode) fs
        (adv.proposals fromStr env response now clock event) := by
  have hsetup := gate_setup adv now event
  unfold AiAdvisor.analyze AiAdvisor.proposals
  cases hgate : adv.gate now event with
  | mk adv' g =>
      rw [hgate] at hsetup
      cases g with
      | skipped => rfl
      | belowThreshold => rfl
      | coolingDown => rfl
      | passed key count context =>
          simp only at hsetup
          rcases hsetup with ⟨hcfg, hstore⟩
          -- The gate changes neither the configuration nor the store.
          have hkey : adv'.resolveApiKey env = adv.resolveApiKey env := by
            unfold AiAdvisor.resolveApiKey
            rw [hcfg]
          simp only [hkey, hcfg, hstore]
          cases adv.resolveApiKey env with
          | none => rfl
          | some apiKey => rfl

variable (glob fromStr)

/-- An answer whitelists no event exactly when no event that was blocked or
    alerted on is allowed by a file that stays or by a proposal. -/
theorem neverWhitelists_iff (adv : AiAdvisor) (hauto : adv.cfg.approvalMode = .auto)
    (fs : FileTree) (hwell : WellFormed fs)
    (hround : ∀ rule text, toText ⟨[rule]⟩ = some text → fromStr (ruleHeader ++ text) = some ⟨[rule]⟩)
    (env : String → Option String) (response : Option Value) (now : Nat) (clock : Nat → Nat)
    (event : NormalizedEvent) :
    NeverWhitelists glob fromStr adv.store.approvedDir fs
        (adv.analyze toText fromStr env response fs now clock event).2 ↔
      ∀ ev, DeniedIn glob fromStr fs adv.store.approvedDir ev →
        ¬ FileAllows glob fromStr toText
            (openedFor fs adv.store.approvedDir (adv.proposals fromStr env response now clock event))
            adv.store.approvedDir (adv.proposals fromStr env response now clock event) ev ∧
        ¬ ProposalAllows glob toText
            (openedFor fs adv.store.approvedDir (adv.proposals fromStr env response now clock event))
            adv.store.approvedDir (adv.proposals fromStr env response now clock event) ev := by
  have hstaged : (adv.analyze toText fromStr env response fs now clock event).2 =
      stageRules (adv.store.stageAuto toText) fs
        (adv.proposals fromStr env response now clock event) := by
    rw [analyze_snd, hauto]
    rfl
  rw [neverWhitelists_iff_allowedIn, hstaged]
  refine forall_congr' (fun ev => forall_congr' (fun _ => ?_))
  rw [allowedIn_stageRules_iff hwell hround, not_or]

end Advisor

/-- What two rules are written as and read from, one that allows everything and
    one that alerts on it. -/
def writeAdvice (rs : RuleSet) : Option String :=
  if rs = ⟨[Rule.bare "curl" .allow]⟩ then some (bareText "curl" "allow")
  else if rs = ⟨[Rule.bare "curl" .alert]⟩ then some (bareText "curl" "alert")
  else none

def parseAdvice (text : String) : Option RuleSet :=
  if text = bareText "curl" "allow" ∨ text = ruleHeader ++ bareText "curl" "allow" then
    some ⟨[Rule.bare "curl" .allow]⟩
  else if text = bareText "curl" "alert" ∨ text = ruleHeader ++ bareText "curl" "alert" then
    some ⟨[Rule.bare "curl" .alert]⟩
  else none

theorem parseAdvice_writeAdvice (rule : Rule) (text : String)
    (h : writeAdvice ⟨[rule]⟩ = some text) : parseAdvice (ruleHeader ++ text) = some ⟨[rule]⟩ := by
  unfold writeAdvice at h
  split at h
  · next heq =>
      rw [← Option.some.inj h, heq]
      exact if_pos (.inr rfl)
  · split at h
    · next heq =>
        rw [← Option.some.inj h, heq]
        decide +kernel
    · exact absurd h (by simp)

/-- An advisor that asks at once and approves what it gets. -/
def autoAdvisor : AiAdvisor :=
  AiAdvisor.new { AiAdvisorConfig.default with
    enabled := true
    apiKeyEnv := "KEY"
    triggerThreshold := 1
    approvalMode := .auto } "/rules"

/-- A response with a rule. -/
def answer (action : String) : Value :=
  .object [("content", .array [.object [("text",
    .string ("```toml\n" ++ bareText "curl" action ++ "```\n"))]])]

/-- The super user executes `curl`, which the built-in rules alert on. -/
def rootCurl : NormalizedEvent :=
  { NormalizedEvent.plainAlert "/usr/bin/curl" with
    process := { (NormalizedEvent.plainAlert "/usr/bin/curl").process with uid := 0 } }

def adviseAtOne (action : String) : FileTree :=
  (autoAdvisor.analyze writeAdvice parseAdvice (fun _ => some "key") (some (answer action)) emptyRoot
    1 (fun _ => 1) rootCurl).2

/-- A rule that alerts whitelists nothing. -/
theorem alert_answer_never_whitelists :
    NeverWhitelists GlobCrate.literal parseAdvice "/rules" emptyRoot (adviseAtOne "alert") := by
  refine (neverWhitelists_iff GlobCrate.literal parseAdvice writeAdvice autoAdvisor rfl emptyRoot
    wellFormed_emptyRoot parseAdvice_writeAdvice (fun _ => some "key") (some (answer "alert")) 1
    (fun _ => 1) rootCurl).mpr (fun ev _ => ?_)
  have hproposals : autoAdvisor.proposals parseAdvice (fun _ => some "key") (some (answer "alert")) 1
      (fun _ => 1) rootCurl = [(1, Rule.bare "curl" .alert)] := by decide +kernel
  rw [hproposals]
  constructor
  · -- The directory is created empty.
    rintro ⟨path, n, text, r, hpath, _, hheld, _⟩
    have hrules : (openedFor emptyRoot "/rules" [(1, Rule.bare "curl" .alert)]).resolve "/rules" =
        some ["rules"] := by decide +kernel
    have hempty : (openedFor emptyRoot "/rules" [(1, Rule.bare "curl" .alert)]).readDir ["rules"] =
        some [] := by decide +kernel
    rw [← Option.some.inj (hrules.symm.trans hpath)] at hheld
    rcases (held_file_iff n text).mp hheld with ⟨inode, hentry, _⟩
    exact absurd ((mem_readDir_iff hempty n _).mpr hentry) List.not_mem_nil
  · rintro ⟨path, n, c, _, _, _, ⟨front, back, hsplit, _⟩, hallow, _⟩
    have hmem : c ∈ [(1, Rule.bare "curl" .alert)] := by
      rw [hsplit]
      exact List.mem_append_right front List.mem_cons_self
    rw [List.mem_singleton.mp hmem] at hallow
    exact absurd hallow (by decide)

/-- A rule that allows whitelists what the built-in rules alert on. -/
theorem allow_answer_whitelists :
    ¬ NeverWhitelists GlobCrate.literal parseAdvice "/rules" emptyRoot (adviseAtOne "allow") := by
  intro h
  have hlisting : rulesListing (adviseAtOne "allow") "/rules" = some
      [some ⟨bytes "ai-approved-1-curl.toml", some (ruleHeader ++ bareText "curl" "allow")⟩] := by
    decide +kernel
  refine h none (rulesListing (adviseAtOne "allow") "/rules") ?_ ?_ rootCurl ?_ ?_
  · have hnone : rulesListing emptyRoot "/rules" = none := by decide +kernel
    unfold ListedAs
    rw [hnone]
    trivial
  · unfold ListedAs
    rw [hlisting]
  · exact .inr (by decide +kernel)
  · rw [hlisting]
    decide +kernel

end VectorGuard
