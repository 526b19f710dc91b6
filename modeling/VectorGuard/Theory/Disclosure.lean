import VectorGuard.Core.Prompt
import VectorGuard.Theory.Requests

/-!
# Disclosure

What the advisor tells the provider, while other tasks change files and the configuration
is replaced.

A request leaves the machine, so what counts is which events can be in it. The advisor
looks at an event only if it was blocked, alerted or killed and has a pattern. Any other
event can be left out of a run without changing a single request. Those in a request are
the newest that were tracked, in one piece, and by a clock that does not go back none of
them is older than the window of the configuration then in force.

The answers stage rules, and so does everything else that changes the rules directory: the
rules in a request are those that are there when it is made.

## Main definitions

* `AdvisorEvent`: What happens to an advisor and its files.
* `postsOf`: The requests in what happens.
* `trackedOf`: The events that an advisor tracks, with their instants.

## Theorems

* `postsOf_filter`: Only tracked events matter.
* `remembers_of_run`: What is in the window.
* `AiAdvisor.discloses_incidents`: What is in the requests.
-/

namespace VectorGuard

open SlidingWindow

/-- What happens to an advisor and its files: a call, or a change of the files by another
    task. -/
inductive AdvisorEvent
  | call (c : AdvisorCall)
  | edit (change : FileTree → FileTree)

namespace AdvisorEvent

/-- An analysis of an event that is not tracked is of no concern. -/
def concerns : AdvisorEvent → Bool
  | call (.analyze _ _ _ _ event) => (trackedKey event).isSome
  | _ => true

def instant : AdvisorEvent → Option Nat
  | call c => c.instant
  | edit _ => none

/-- The configuration after an event. -/
def configAfter (cfg : AiAdvisorConfig) : AdvisorEvent → AiAdvisorConfig
  | call (.updateConfig cfg') => cfg'
  | _ => cfg

/-- The event that is tracked, if any is. -/
def tracked (cfg : AiAdvisorConfig) : AdvisorEvent → Option Call
  | call (.analyze _ _ now _ event) =>
    if cfg.enabled && (trackedKey event).isSome then some (now, event) else none
  | _ => none

/-- What is sent. -/
def post (debugStr : String → String) (s : AiAdvisor × FileTree) :
    AdvisorEvent → Option ProviderPost
  | call (.analyze env _ now _ event) => s.1.post debugStr env s.2 now event
  | _ => none

def apply (toText : RuleSet → Option String) (fromStr : String → Option RuleSet)
    (s : AiAdvisor × FileTree) : AdvisorEvent → AiAdvisor × FileTree
  | call c => c.apply toText fromStr s
  | edit change => (s.1, change s.2)

end AdvisorEvent

section Runs

variable (debugStr : String → String) (toText : RuleSet → Option String)
  (fromStr : String → Option RuleSet)

/-- The advisor and the files after some events. -/
def advisedBy (s : AiAdvisor × FileTree) (events : List AdvisorEvent) : AiAdvisor × FileTree :=
  events.foldl (AdvisorEvent.apply toText fromStr) s

/-- What is sent in the course of some events. -/
def postsOf : AiAdvisor × FileTree → List AdvisorEvent → List ProviderPost
  | _, [] => []
  | s, e :: events => (e.post debugStr s).toList ++ postsOf (e.apply toText fromStr s) events

end Runs

/-- The events that are tracked in the course of some others. -/
def trackedOf : AiAdvisorConfig → List AdvisorEvent → List Call
  | _, [] => []
  | cfg, e :: events => (e.tracked cfg).toList ++ trackedOf (e.configAfter cfg) events

variable {debugStr : String → String} {toText : RuleSet → Option String}
  {fromStr : String → Option RuleSet} {adv : AiAdvisor} {fs : FileTree} {now : Nat}
  {event : NormalizedEvent}

/-! ### What is not tracked -/

theorem gate_of_untracked (hkey : trackedKey event = none) :
    adv.gate now event = (adv, .skipped) := by
  cases henabled : adv.cfg.enabled with
  | true => exact gate_untracked henabled hkey
  | false =>
      unfold AiAdvisor.gate
      rw [henabled]
      rfl

variable (debugStr toText fromStr) in
/-- An event that is of no concern leaves everything as it is. -/
theorem of_not_concerns {e : AdvisorEvent} (h : e.concerns = false) (s : AiAdvisor × FileTree) :
    e.post debugStr s = none ∧ e.apply toText fromStr s = s := by
  cases e with
  | edit change => exact absurd h.symm Bool.false_ne_true
  | call c =>
      cases c with
      | updateConfig cfg => exact absurd h.symm Bool.false_ne_true
      | analyze env response now clock event =>
          have hgate : s.1.gate now event = (s.1, .skipped) :=
            gate_of_untracked (Option.isNone_iff_eq_none.mp (Option.isSome_eq_false_iff.mp h))
          unfold AdvisorEvent.post AdvisorEvent.apply AdvisorCall.apply AiAdvisor.post
            AiAdvisor.analyze
          dsimp only
          rw [hgate]
          exact ⟨rfl, rfl⟩

/-- Only tracked events matter. -/
theorem postsOf_filter (s : AiAdvisor × FileTree) (events : List AdvisorEvent) :
    postsOf debugStr toText fromStr s (events.filter AdvisorEvent.concerns)
      = postsOf debugStr toText fromStr s events := by
  induction events generalizing s with
  | nil => rfl
  | cons e events ih =>
      cases hconcerns : e.concerns with
      | true =>
          rw [List.filter_cons_of_pos hconcerns]
          unfold postsOf
          rw [ih]
      | false =>
          -- The event sends nothing, and what follows it starts from the same state.
          rcases of_not_concerns debugStr toText fromStr hconcerns s with ⟨hpost, hsame⟩
          rw [List.filter_cons_of_neg (Bool.eq_false_iff.mp hconcerns), ih]
          conv_rhs => unfold postsOf
          rw [hpost, hsame]
          rfl

/-! ### The window -/

theorem evict_eq_dropWhile (now width : Nat) (window : List Call) (counts : Counts) :
    (AiAdvisor.evict now width window counts).1
      = window.dropWhile (fun c => decide (width < now - c.1)) := by
  induction window generalizing counts with
  | nil => rfl
  | cons c rest ih =>
      unfold AiAdvisor.evict
      rw [List.dropWhile_cons]
      by_cases hexp : now - c.1 > width
      · rw [if_pos hexp, if_pos (decide_eq_true hexp)]
        split
        · exact ih _
        · exact ih _
      · rw [if_neg hexp, if_neg (by rw [decide_eq_true_eq]; exact hexp)]

/-- What becomes of the window: it is left alone, or what has expired at its front makes
    room for a tracked event. -/
theorem gate_window (adv : AiAdvisor) (now : Nat) (event : NormalizedEvent) :
    (adv.gate now event).1.cfg = adv.cfg ∧ (adv.gate now event).1.rulesPath = adv.rulesPath ∧
      (adv.gate now event).1.window =
        if adv.cfg.enabled && (trackedKey event).isSome then
          adv.window.dropWhile (fun c => decide (fromSecs adv.cfg.windowSecs < now - c.1))
            ++ [(now, event)]
        else adv.window := by
  cases henabled : adv.cfg.enabled with
  | false =>
      have hgate : adv.gate now event = (adv, .skipped) := by
        unfold AiAdvisor.gate
        rw [henabled]
        rfl
      rw [hgate]
      exact ⟨rfl, rfl, rfl⟩
  | true =>
      cases hkey : trackedKey event with
      | none =>
          rw [gate_untracked henabled hkey]
          exact ⟨rfl, rfl, rfl⟩
      | some key =>
          -- However the check ends, the event has been tracked before it.
          rcases gate_tracked now henabled hkey with ⟨count, context, _, hgate⟩
          have hwindow : (adv.track now event key).window
              = adv.window.dropWhile (fun c => decide (fromSecs adv.cfg.windowSecs < now - c.1))
                ++ [(now, event)] :=
            congrArg (· ++ [(now, event)]) (evict_eq_dropWhile _ _ _ _)
          rw [hgate]
          split
          · exact ⟨rfl, rfl, hwindow⟩
          · split
            · exact ⟨rfl, rfl, hwindow⟩
            · exact ⟨rfl, rfl, hwindow⟩

/-- An event that gets past the checks is tracked, and the request is about the newest
    events of the window. -/
theorem gate_passed {key : PatternKey} {count : UInt32} {context : List NormalizedEvent}
    (h : (adv.gate now event).2 = .passed key count context) :
    (adv.cfg.enabled && (trackedKey event).isSome) = true ∧
      context = ((adv.gate now event).1.window.reverse.take adv.cfg.contextWindowSize).map
        Prod.snd := by
  cases henabled : adv.cfg.enabled with
  | false =>
      unfold AiAdvisor.gate at h
      rw [henabled] at h
      exact Gate.noConfusion h
  | true =>
      cases hkey : trackedKey event with
      | none =>
          rw [gate_untracked henabled hkey] at h
          exact Gate.noConfusion h
      | some key =>
          refine ⟨rfl, ?_⟩
          unfold trackedKey at hkey
          cases hincident : isIncident event.action with
          | false =>
              rw [hincident, if_neg Bool.false_ne_true] at hkey
              exact absurd hkey (Option.some_ne_none key).symm
          | true =>
              rw [hincident, if_pos rfl] at hkey
              have hgate : adv.gate now event =
                  if ((adv.track now event key).counts.lookup key).getD 0
                      < adv.cfg.triggerThreshold then (adv.track now event key, .belowThreshold)
                  else if adv.cooling now key then (adv.track now event key, .coolingDown)
                  else ({ adv.track now event key with
                    cooldowns := adv.cooldowns.insert key now }, .passed key
                      (((adv.track now event key).counts.lookup key).getD 0)
                      (((adv.track now event key).window.reverse.take
                        adv.cfg.contextWindowSize).map Prod.snd)) := by
                unfold AiAdvisor.gate
                rw [henabled, hincident, hkey]
                rfl
              rw [hgate] at h ⊢
              split at h
              · exact Gate.noConfusion h
              · next hcount =>
                  rw [if_neg hcount]
                  split at h
                  · exact Gate.noConfusion h
                  · next hcool =>
                      rw [if_neg hcool]
                      exact (Gate.passed.inj h).2.2.symm

/-- What is sent is asked of the provider of the configuration, with a key from the
    environment, the rules that are there, and the newest events of the window. -/
theorem post_spec {env : String → Option String} {p : ProviderPost}
    (h : adv.post debugStr env fs now event = some p) :
    (adv.cfg.enabled && (trackedKey event).isSome) = true ∧ ∃ apiKey,
      env adv.cfg.apiKeyEnv = some apiKey ∧
      p = callProvider adv.cfg (buildPrompt debugStr (currentRules fs adv.rulesPath)
        adv.cfg.maxRulesPerFire (((adv.gate now event).1.window.reverse.take
          adv.cfg.contextWindowSize).map Prod.snd)) apiKey := by
  rcases gate_window adv now event with ⟨hcfg, hpath, _⟩
  unfold AiAdvisor.post at h
  split at h
  · next adv' key count context hgate =>
      have hpassed : (adv.gate now event).2 = .passed key count context := by rw [hgate]
      rcases gate_passed hpassed with ⟨htracked, rfl⟩
      -- The advisor that asks is the one after the check, with the same configuration.
      rw [hgate] at hcfg hpath ⊢
      dsimp only at hcfg hpath ⊢
      rcases Option.map_eq_some_iff.mp h with ⟨apiKey, hkey, rfl⟩
      refine ⟨htracked, apiKey, ?_, ?_⟩
      · unfold AiAdvisor.resolveApiKey at hkey
        rw [hcfg] at hkey
        split at hkey
        · exact absurd hkey (Option.some_ne_none _).symm
        · exact (Option.filter_eq_some_iff.mp hkey).1
      · rw [hcfg, hpath, hgate]
  · exact absurd h (Option.some_ne_none _).symm

/-! ### Runs -/

/-- The configuration after some events. -/
def configOf (cfg : AiAdvisorConfig) (events : List AdvisorEvent) : AiAdvisorConfig :=
  events.foldl AdvisorEvent.configAfter cfg

theorem trackedOf_append (cfg : AiAdvisorConfig) (events events' : List AdvisorEvent) :
    trackedOf cfg (events ++ events')
      = trackedOf cfg events ++ trackedOf (configOf cfg events) events' := by
  induction events generalizing cfg with
  | nil => rfl
  | cons e events ih =>
      rw [List.cons_append, trackedOf, trackedOf, ih, List.append_assoc]
      rfl

/-- What an advisor remembers of some events. -/
structure Remembers (cfg : AiAdvisorConfig) (rulesPath : String) (events : List AdvisorEvent)
    (adv : AiAdvisor) : Prop where
  cfg_eq : adv.cfg = configOf cfg events
  rulesPath_eq : adv.rulesPath = rulesPath
  window : adv.window <:+ trackedOf cfg events

theorem suffix_append_right {α : Type*} {l l' : List α} (h : l <:+ l') (more : List α) :
    l ++ more <:+ l' ++ more := by
  rcases h with ⟨rest, rfl⟩
  exact ⟨rest, (List.append_assoc rest l more).symm⟩

theorem Remembers.snoc {cfg : AiAdvisorConfig} {rulesPath : String} {events : List AdvisorEvent}
    {s : AiAdvisor × FileTree} (h : Remembers cfg rulesPath events s.1) (e : AdvisorEvent) :
    Remembers cfg rulesPath (events ++ [e]) (e.apply toText fromStr s).1 := by
  have hcfg : configOf cfg (events ++ [e]) = e.configAfter (configOf cfg events) :=
    List.foldl_append
  have htracked : trackedOf cfg (events ++ [e])
      = trackedOf cfg events ++ (e.tracked (configOf cfg events)).toList :=
    (trackedOf_append cfg events [e]).trans (congrArg _ (List.append_nil _))
  cases e with
  | edit change =>
      refine ⟨h.cfg_eq.trans hcfg.symm, h.rulesPath_eq, ?_⟩
      rw [htracked]
      exact (List.append_nil (trackedOf cfg events)).symm ▸ h.window
  | call c =>
      cases c with
      | updateConfig cfg' =>
          refine ⟨hcfg.symm, h.rulesPath_eq, ?_⟩
          rw [htracked]
          exact (List.append_nil (trackedOf cfg events)).symm ▸ h.window
      | analyze env response now clock event =>
          have hgate : (AdvisorEvent.apply toText fromStr s
              (.call (.analyze env response now clock event))).1 = (s.1.gate now event).1 :=
            fst_analyze env response clock
          rcases gate_window s.1 now event with ⟨hsame, hpath, hwindow⟩
          rw [hgate]
          refine ⟨hsame.trans (h.cfg_eq.trans hcfg.symm), hpath.trans h.rulesPath_eq, ?_⟩
          rw [hwindow, htracked, h.cfg_eq]
          unfold AdvisorEvent.tracked
          dsimp only
          split
          · -- What has expired leaves at the front, and the event comes in at the end.
            exact suffix_append_right ((List.dropWhile_suffix _).trans h.window) _
          · exact (List.append_nil (trackedOf cfg events)).symm ▸ h.window

/-- What an advisor remembers in the course of some events. -/
theorem remembers_of_run (cfg : AiAdvisorConfig) (rulesPath : String) (fs : FileTree)
    (events : List AdvisorEvent) : Remembers cfg rulesPath events
      (advisedBy toText fromStr (AiAdvisor.new cfg rulesPath, fs) events).1 := by
  induction events using List.reverseRecOn with
  | nil => exact ⟨rfl, rfl, List.nil_suffix⟩
  | append_singleton events e ih =>
      unfold advisedBy at ih ⊢
      rw [List.foldl_append]
      exact ih.snoc e

/-- Every request is that of one event. -/
theorem exists_of_mem_postsOf {p : ProviderPost} {s : AiAdvisor × FileTree}
    {events : List AdvisorEvent} (h : p ∈ postsOf debugStr toText fromStr s events) :
    ∃ before e after, events = before ++ e :: after ∧
      e.post debugStr (advisedBy toText fromStr s before) = some p := by
  induction events generalizing s with
  | nil => exact absurd h List.not_mem_nil
  | cons e events ih =>
      rcases List.mem_append.mp h with hfirst | hrest
      · exact ⟨[], e, events, rfl, Option.mem_toList.mp hfirst⟩
      · rcases ih hrest with ⟨before, e', after, rfl, hpost⟩
        exact ⟨e :: before, e', after, rfl, hpost⟩

theorem instant_of_tracked {cfg : AiAdvisorConfig} {e : AdvisorEvent} {c : Call}
    (h : e.tracked cfg = some c) : e.instant = some c.1 := by
  cases e with
  | edit change => exact absurd h (Option.some_ne_none c).symm
  | call call =>
      cases call with
      | updateConfig cfg' => exact absurd h (Option.some_ne_none c).symm
      | analyze env response now clock event =>
          unfold AdvisorEvent.tracked at h
          dsimp only at h
          split at h
          · rw [← Option.some.inj h]
            rfl
          · exact absurd h (Option.some_ne_none c).symm

/-- What is tracked comes in order of time if the events do. -/
theorem ordered_trackedOf {cfg : AiAdvisorConfig} {events : List AdvisorEvent}
    (hclock : (events.filterMap AdvisorEvent.instant).Pairwise (· ≤ ·)) :
    Ordered Prod.fst (trackedOf cfg events) := by
  -- The tracked events are some of those with an instant, in the same order.
  have hsub : ((trackedOf cfg events).map Prod.fst).Sublist
      (events.filterMap AdvisorEvent.instant) := by
    clear hclock
    induction events generalizing cfg with
    | nil => exact List.Sublist.refl _
    | cons e events ih =>
        unfold trackedOf
        rw [List.map_append]
        cases htracked : e.tracked cfg with
        | none =>
            cases hinstant : e.instant with
            | none =>
                rw [List.filterMap_cons_none hinstant]
                exact ih
            | some t =>
                rw [List.filterMap_cons_some hinstant]
                exact ih.cons t
        | some c =>
            have hinstant : e.instant = some c.1 := instant_of_tracked htracked
            rw [List.filterMap_cons_some hinstant]
            exact ih.cons_cons c.1
  exact List.pairwise_map.mp (hclock.sublist hsub)

/-- Nothing that the window has kept has expired. -/
theorem age_le_of_kept {width : Nat} {window : List Call} (hordered : Ordered Prod.fst window)
    {c : Call} (hc : c ∈ window.dropWhile (fun c => decide (width < now - c.1)) ++ [(now, event)]) :
    now - c.1 ≤ width := by
  rcases List.mem_append.mp hc with hkept | hlast
  · rw [dropWhile_expired now window hordered] at hkept
    exact of_decide_eq_true (List.mem_filter.mp hkept).2
  · rw [List.mem_singleton.mp hlast, Nat.sub_self]
    exact Nat.zero_le _

/-- However the files and the configuration change: leaving out every event that is not
    tracked changes no request, and a request is about the newest tracked events, no more
    than the configuration of the moment says and none of them older, beside the rule files
    that are there. -/
theorem AiAdvisor.discloses_incidents (cfg : AiAdvisorConfig) (rulesPath : String) (fs : FileTree)
    (events : List AdvisorEvent) :
    let start := (AiAdvisor.new cfg rulesPath, fs)
    postsOf debugStr toText fromStr start (events.filter AdvisorEvent.concerns)
      = postsOf debugStr toText fromStr start events ∧
    ∀ p ∈ postsOf debugStr toText fromStr start events,
      ∃ before env response now clock event after apiKey recent,
        let e := AdvisorEvent.call (.analyze env response now clock event)
        let current := configOf cfg before
        events = before ++ e :: after ∧ env current.apiKeyEnv = some apiKey ∧
        p = callProvider current (buildPrompt debugStr
          (currentRules (advisedBy toText fromStr start before).2 rulesPath)
          current.maxRulesPerFire (recent.map Prod.snd).reverse) apiKey ∧
        recent <:+ trackedOf cfg (before ++ [e]) ∧ recent.length ≤ current.contextWindowSize ∧
        (0 < current.contextWindowSize → recent ≠ []) ∧
        ((events.filterMap AdvisorEvent.instant).Pairwise (· ≤ ·) →
          ∀ c ∈ recent, now - c.1 ≤ fromSecs current.windowSecs) := by
  intro start
  refine ⟨postsOf_filter start events, fun p hp => ?_⟩
  rcases exists_of_mem_postsOf hp with ⟨before, e, after, rfl, hpost⟩
  cases e with
  | edit change => exact absurd hpost (Option.some_ne_none p).symm
  | call c =>
      cases c with
      | updateConfig cfg' => exact absurd hpost (Option.some_ne_none p).symm
      | analyze env response now clock event =>
          let s := advisedBy toText fromStr start before
          let e := AdvisorEvent.call (.analyze env response now clock event)
          have hbefore : Remembers cfg rulesPath before s.1 :=
            remembers_of_run cfg rulesPath fs before
          have hgate : (e.apply toText fromStr s).1 = (s.1.gate now event).1 :=
            fst_analyze env response clock
          -- The request reads the window of the step itself, with its event at the end.
          have hafter : (s.1.gate now event).1.window <:+ trackedOf cfg (before ++ [e]) := by
            rw [← hgate]
            exact (hbefore.snoc e).window
          rcases post_spec hpost with ⟨htracked, apiKey, hkey, hp⟩
          rcases gate_window s.1 now event with ⟨_, _, hwindow⟩
          rw [if_pos htracked] at hwindow
          rw [hbefore.cfg_eq] at hkey hp hwindow
          rw [hbefore.rulesPath_eq, List.take_reverse, List.map_reverse] at hp
          refine ⟨before, env, response, now, clock, event, after, apiKey,
            lastN (configOf cfg before).contextWindowSize (s.1.gate now event).1.window, rfl, hkey,
            hp, (lastN_suffix _ _).trans hafter, length_lastN_le _ _, fun hsome => ?_,
            fun hclock c hc => ?_⟩
          · refine lastN_ne_nil hsome ?_
            rw [hwindow]
            exact List.append_ne_nil_of_right_ne_nil _ (List.cons_ne_nil _ _)
          · -- By a clock that does not go back, eviction at the front takes all that has expired.
            have hordered : Ordered Prod.fst s.1.window := by
              rw [List.filterMap_append] at hclock
              exact (ordered_trackedOf (List.pairwise_append.mp hclock).1).sublist
                hbefore.window.sublist
            have hkept := (lastN_suffix _ _).subset hc
            rw [hwindow] at hkept
            exact age_le_of_kept hordered hkept

/-- An advisor with a key of its own. -/
def keyedAdvisor : AiAdvisorConfig := { eagerAdvisor with apiKeyEnv := "ANTHROPIC_API_KEY" }

/-- Two alerts on `nc`, and an `ls` between them. -/
def lsBetween : List AdvisorEvent :=
  [(0, .plainAlert "nc"), (500000000, .plainExec "ls"), (1000000000, .plainAlert "nc")].map
    (fun c : Call => .call (.analyze (fun _ => some "key") none c.1 (fun _ => c.1) c.2))

def postsBetween (events : List AdvisorEvent) : List ProviderPost :=
  postsOf (fun s => "\"" ++ s ++ "\"") (fun _ => some "") (fun _ => none)
    (AiAdvisor.new keyedAdvisor "/rules", emptyRoot) events

/-- They lead to one request, which is the same without the `ls` and about the alerts. -/
theorem ls_undisclosed :
    (postsBetween lsBetween).length = 1 ∧
    postsBetween (lsBetween.filter AdvisorEvent.concerns) = postsBetween lsBetween ∧
    ∀ p ∈ postsBetween lsBetween, ∃ apiKey cfg rules max recent,
      p = callProvider cfg (buildPrompt (fun s => "\"" ++ s ++ "\"") rules max
        (recent.map Prod.snd).reverse) apiKey ∧
      recent ⊆ [(0, .plainAlert "nc"), (1000000000, .plainAlert "nc")] := by
  have hall := @AiAdvisor.discloses_incidents (fun s => "\"" ++ s ++ "\"") (fun _ => some "")
    (fun _ => none) keyedAdvisor "/rules" emptyRoot lsBetween
  refine ⟨by decide +kernel, hall.1, fun p hp => ?_⟩
  rcases hall.2 p hp with ⟨before, env, response, now, clock, event, after, apiKey, recent, hevents,
    _, hpost, hsuffix, _⟩
  refine ⟨apiKey, _, _, _, recent, hpost, fun c hc => ?_⟩
  have htracked : trackedOf keyedAdvisor lsBetween
      = [(0, .plainAlert "nc"), (1000000000, .plainAlert "nc")] := rfl
  rw [← htracked, hevents, List.append_cons, trackedOf_append]
  exact List.mem_append_left _ (hsuffix.subset hc)

end VectorGuard
