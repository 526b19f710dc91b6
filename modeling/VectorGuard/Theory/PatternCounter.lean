import VectorGuard.Core.AiAdvisor
import VectorGuard.Lib.SlidingWindow

/-!
# Pattern Counter

The window, the counts and the cooldowns of the advisor against what they are
kept for.

The counts are those of the patterns in the window, before and after every
event, and the window stands for the history of tracked events at every later
instant. Right after an event has been put in, everything in the window is
recent, so its count is the number of recent events of its pattern. The
cooldowns hold the last pass of every pattern, and the last pass is the one to
be compared with because passes come in order of time.

## Main definitions

* `trackedKey`: The pattern of an event the advisor tracks.
* `AiAdvisor.passes`: The passes of a run, with their instants.
* `recentCount`: How often a pattern occurs among the recent events of a history.
* `Mirrors`: What the state of the advisor says about the history.

## Theorems

* `evict_eq`: The eviction loop keeps the recent events and counts them.
* `mirrors_after`: The state mirrors the history after every run.
* `passes_iff`: When the advisor gets past its checks.
-/

namespace VectorGuard

open SlidingWindow

abbrev Call := Nat × NormalizedEvent

/-- The pattern of an event the advisor tracks. -/
def trackedKey (event : NormalizedEvent) : Option PatternKey :=
  if isIncident event.action then patternKey event else none

/-- The calls of a history on events the advisor tracks. -/
def trackedCalls (calls : List Call) : List Call :=
  calls.filter (fun c => (trackedKey c.2).isSome)

/-- The instant and the pattern of a call that got past the checks. -/
def passOf (now : Nat) : Gate → Option (Nat × PatternKey)
  | .passed key _ _ => some (now, key)
  | _ => none

namespace AiAdvisor

/-- The advisor after some calls. -/
def after (adv : AiAdvisor) (calls : List Call) : AiAdvisor :=
  calls.foldl (fun adv c => (adv.gate c.1 c.2).1) adv

/-- The passes of some calls. -/
def passes : AiAdvisor → List Call → List (Nat × PatternKey)
  | _, [] => []
  | adv, c :: rest =>
    (passOf c.1 (adv.gate c.1 c.2).2).toList ++ passes (adv.gate c.1 c.2).1 rest

end AiAdvisor

/-- How often a pattern occurs in a history within the window that ends at an
    instant. -/
def recentCount (cfg : AiAdvisorConfig) (calls : List Call) (key : PatternKey) (now : Nat) : Nat :=
  calls.countP (fun c => trackedKey c.2 = some key ∧ now - c.1 ≤ fromSecs cfg.windowSecs)

/-- A map that counts the keys of a list. -/
def Tallies (counts : Counts) (keys : List PatternKey) : Prop :=
  ∀ key, ((counts.lookup key).getD 0).toNat = keys.count key

theorem Tallies.nil : Tallies ∅ [] := fun _ => rfl

theorem tallies_increment {counts : Counts} {keys : List PatternKey} (h : Tallies counts keys)
    (key : PatternKey) (hroom : keys.count key + 1 < UInt32.size) :
    Tallies (increment counts key) (keys ++ [key]) := by
  intro k
  unfold increment
  by_cases hk : k = key
  · rw [hk, AList.lookup_insert, Option.getD_some, List.count_append, List.count_singleton_self,
      UInt32.toNat_add, h key]
    exact Nat.mod_eq_of_lt hroom
  · rw [AList.lookup_insert_ne hk, h k, List.count_append, List.count_singleton]
    rw [if_neg (by simpa using fun heq => hk heq.symm), Nat.add_zero]

theorem tallies_decrement {counts : Counts} {key : PatternKey} {keys : List PatternKey}
    (h : Tallies counts (key :: keys)) : Tallies (decrement counts key) keys := by
  intro k
  have hkey := h key
  rw [List.count_cons_self] at hkey
  have hk := h k
  unfold decrement
  cases hlookup : counts.lookup key with
  | none =>
      -- A key of the list has a count.
      rw [hlookup] at hkey
      exact absurd hkey (by simp)
  | some c =>
      rw [hlookup, Option.getD_some] at hkey
      have hpos : c ≠ 0 := by
        intro hzero
        rw [hzero] at hkey
        exact absurd hkey (by simp)
      have hle : (1 : UInt32) ≤ c := by
        rw [UInt32.le_iff_toNat_le, hkey]
        exact Nat.le_add_left 1 _
      have hsub : (c - 1).toNat = keys.count key := by
        rw [UInt32.toNat_sub_of_le c 1 hle, hkey]
        rfl
      simp only [if_neg hpos]
      -- A count that comes to zero is erased, and is then read as zero.
      by_cases hsame : k = key
      · rw [hsame, ← hsub]
        by_cases hone : c - 1 = 0
        · rw [if_pos hone, AList.lookup_erase, hone, Option.getD_none]
        · rw [if_neg hone, AList.lookup_insert, Option.getD_some]
      · rw [List.count_cons_of_ne (fun heq => hsame heq.symm)] at hk
        by_cases hone : c - 1 = 0
        · rw [if_pos hone, AList.lookup_erase_ne hsame, hk]
        · rw [if_neg hone, AList.lookup_insert_ne hsame, hk]

/-- The patterns of the events in a window. -/
def windowKeys (window : List Call) : List PatternKey :=
  window.filterMap (fun c => patternKey c.2)

/-- Eviction drops the expired calls at the front, each with its count. -/
theorem evict_eq (now width : Nat) (window : List Call) (counts : Counts)
    (hcounts : Tallies counts (windowKeys window)) :
    (AiAdvisor.evict now width window counts).1
        = window.dropWhile (fun c => decide (width < now - c.1)) ∧
      Tallies (AiAdvisor.evict now width window counts).2
        (windowKeys (AiAdvisor.evict now width window counts).1) := by
  induction window generalizing counts with
  | nil => exact ⟨rfl, hcounts⟩
  | cons c rest ih =>
      simp only [AiAdvisor.evict, List.dropWhile_cons]
      by_cases hexp : now - c.1 > width
      · rw [if_pos hexp, if_pos (decide_eq_true hexp)]
        unfold windowKeys at hcounts
        -- A call without a pattern was never counted.
        cases hkey : patternKey c.2 with
        | none =>
            simp only [List.filterMap_cons, hkey] at hcounts
            exact ih counts hcounts
        | some key =>
            simp only [List.filterMap_cons, hkey] at hcounts
            exact ih (decrement counts key) (tallies_decrement hcounts)
      · rw [if_neg hexp, if_neg (by rw [decide_eq_true_eq]; exact hexp)]
        exact ⟨rfl, hcounts⟩

namespace AiAdvisor

/-- The advisor once a tracked event is in the window and counted. -/
def track (adv : AiAdvisor) (now : Nat) (event : NormalizedEvent) (key : PatternKey) : AiAdvisor :=
  let kept := evict now (fromSecs adv.cfg.windowSecs) adv.window adv.counts
  { adv with window := kept.1 ++ [(now, event)], counts := increment kept.2 key }

/-- A pattern is cooling down. -/
def cooling (adv : AiAdvisor) (now : Nat) (key : PatternKey) : Bool :=
  match adv.cooldowns.lookup key with
  | some last => decide (now - last < fromSecs adv.cfg.cooldownSeconds)
  | none => false

end AiAdvisor

variable {adv : AiAdvisor} {now : Nat} {event : NormalizedEvent} {key : PatternKey}

theorem gate_untracked (henabled : adv.cfg.enabled = true) (hkey : trackedKey event = none) :
    adv.gate now event = (adv, .skipped) := by
  unfold trackedKey at hkey
  unfold AiAdvisor.gate
  rw [henabled]
  cases hincident : isIncident event.action with
  | false => rfl
  | true =>
      rw [hincident, if_pos rfl] at hkey
      rw [hkey]
      rfl

/-- What becomes of a tracked event. -/
theorem gate_tracked (now : Nat) (henabled : adv.cfg.enabled = true) (hkey : trackedKey event = some key) :
    ∃ count context, count = ((adv.track now event key).counts.lookup key).getD 0 ∧
      adv.gate now event =
        if count < adv.cfg.triggerThreshold then (adv.track now event key, .belowThreshold)
        else if adv.cooling now key then (adv.track now event key, .coolingDown)
        else ({ adv.track now event key with cooldowns := adv.cooldowns.insert key now },
          .passed key count context) := by
  unfold trackedKey at hkey
  cases hincident : isIncident event.action with
  | false =>
      rw [hincident] at hkey
      exact absurd hkey (by simp)
  | true =>
      rw [hincident, if_pos rfl] at hkey
      refine ⟨_, ((adv.track now event key).window.reverse.take
        adv.cfg.contextWindowSize).map Prod.snd, rfl, ?_⟩
      unfold AiAdvisor.gate
      rw [henabled, hincident, hkey]
      rfl

/-- Calls in order of time. -/
abbrev Clocked (calls : List Call) : Prop := Ordered Prod.fst calls

/-- Fewer than `2 ^ 32` tracked events in every window. -/
def Uncrowded (cfg : AiAdvisorConfig) (calls : List Call) : Prop :=
  ∀ now, ((trackedCalls calls).filter
    (fun c => c.1 ≤ now ∧ now - c.1 ≤ fromSecs cfg.windowSecs)).length < UInt32.size

/-- What the state of the advisor says about the calls so far and the passes
    among them. -/
structure Mirrors (cfg : AiAdvisorConfig) (adv : AiAdvisor) (calls : List Call)
    (done : List (Nat × PatternKey)) : Prop where
  cfg_eq : adv.cfg = cfg
  window : Represents Prod.fst (fromSecs cfg.windowSecs) id adv.window (trackedCalls calls)
  counts : Tallies adv.counts (windowKeys adv.window)
  cooldowns : ∀ key, adv.cooldowns.lookup key
    = ((done.filter (fun p => decide (p.2 = key))).getLast?).map Prod.fst

variable {cfg : AiAdvisorConfig} {calls : List Call} {done : List (Nat × PatternKey)}

theorem trackedCalls_append_some (hkey : trackedKey event = some key) :
    trackedCalls (calls ++ [(now, event)]) = trackedCalls calls ++ [(now, event)] := by
  unfold trackedCalls
  rw [List.filter_append, List.filter_cons_of_pos (by simp [hkey]), List.filter_nil]

theorem trackedCalls_append_none (hkey : trackedKey event = none) :
    trackedCalls (calls ++ [(now, event)]) = trackedCalls calls := by
  unfold trackedCalls
  rw [List.filter_append, List.filter_cons_of_neg (by simp [hkey]), List.filter_nil,
    List.append_nil]

theorem upTo_trackedCalls (hclock : Clocked (calls ++ [(now, event)])) :
    UpTo Prod.fst now (trackedCalls (calls ++ [(now, event)])) := by
  intro c hmem
  rcases List.mem_append.mp (List.mem_of_mem_filter hmem) with hmem | hmem
  · exact (List.pairwise_append.mp hclock).2.2 c hmem (now, event) List.mem_cons_self
  · exact Nat.le_of_eq (congrArg Prod.fst (List.mem_singleton.mp hmem))

/-- The window after an event is tracked. -/
theorem window_track (hm : Mirrors cfg adv calls done)
    (hclock : Clocked (calls ++ [(now, event)])) :
    (adv.track now event key).window
      = recent Prod.fst (fromSecs cfg.windowSecs) now (adv.window ++ [(now, event)]) := by
  have hself : recent Prod.fst (fromSecs cfg.windowSecs) now [((now, event) : Call)]
      = [(now, event)] := by
    simp [recent]
  have hordered : Ordered Prod.fst adv.window :=
    (List.pairwise_append.mp hclock).1.sublist (hm.window.sub.trans List.filter_sublist)
  unfold AiAdvisor.track
  simp only
  rw [(evict_eq now _ adv.window adv.counts hm.counts).1, hm.cfg_eq,
    dropWhile_expired now _ hordered, recent_append, hself]

theorem represents_track (hm : Mirrors cfg adv calls done) (hkey : trackedKey event = some key)
    (hclock : Clocked (calls ++ [(now, event)])) :
    Represents Prod.fst (fromSecs cfg.windowSecs) id (adv.track now event key).window
      (trackedCalls (calls ++ [(now, event)])) := by
  have hordered : Ordered Prod.fst (trackedCalls (calls ++ [(now, event)])) :=
    hclock.sublist List.filter_sublist
  rw [trackedCalls_append_some hkey] at hordered ⊢
  rw [window_track hm hclock]
  exact hm.window.push trimming_id (now, event) hordered

/-- The window holds, right after an event is tracked, the recent tracked
    events. -/
theorem window_track_eq_recent (hm : Mirrors cfg adv calls done) (hkey : trackedKey event = some key)
    (hclock : Clocked (calls ++ [(now, event)])) :
    (adv.track now event key).window
      = recent Prod.fst (fromSecs cfg.windowSecs) now (trackedCalls (calls ++ [(now, event)])) := by
  have hrecent := (represents_track hm hkey hclock).recent_eq now (upTo_trackedCalls hclock)
  rw [window_track hm hclock, recent_recent (Nat.le_refl now)] at hrecent
  rw [window_track hm hclock]
  exact hrecent

/-- The pattern count of the recent tracked events is the count by definition. -/
theorem count_windowKeys (calls : List Call) (key : PatternKey) :
    (windowKeys (recent Prod.fst (fromSecs cfg.windowSecs) now (trackedCalls calls))).count key
      = recentCount cfg calls key now := by
  unfold windowKeys recentCount recent trackedCalls
  rw [List.count_filterMap, List.countP_filter, List.countP_filter]
  refine List.countP_congr (fun c _ => ?_)
  unfold trackedKey
  cases isIncident c.2.action <;> cases patternKey c.2 <;> simp

/-- No count overflows. -/
theorem recentCount_lt (key : PatternKey) (hclock : Clocked (calls ++ [(now, event)]))
    (hfew : Uncrowded cfg (calls ++ [(now, event)])) :
    recentCount cfg (calls ++ [(now, event)]) key now < UInt32.size := by
  -- The events of one pattern are among the tracked events of the window that ends
  -- at this instant, of which there are few.
  refine Nat.lt_of_le_of_lt ?_ (hfew now)
  rw [← count_windowKeys]
  refine List.count_le_length.trans ((List.length_filterMap_le _ _).trans ?_)
  unfold recent
  refine List.Sublist.length_le ?_
  -- Nothing of the history is later than the event.
  rw [List.filter_congr (q := fun c : Call =>
    decide (c.1 ≤ now ∧ now - c.1 ≤ fromSecs cfg.windowSecs))]
  intro c hmem
  rw [decide_eq_decide]
  exact ⟨fun h => ⟨upTo_trackedCalls hclock c hmem, h⟩, And.right⟩

/-- The counts after an event is tracked are those of the window. -/
theorem tallies_track (hm : Mirrors cfg adv calls done) (hkey : trackedKey event = some key)
    (hclock : Clocked (calls ++ [(now, event)])) (hfew : Uncrowded cfg (calls ++ [(now, event)])) :
    Tallies (adv.track now event key).counts (windowKeys (adv.track now event key).window) := by
  have hevict := evict_eq now (fromSecs adv.cfg.windowSecs) adv.window adv.counts hm.counts
  have hpattern : patternKey event = some key := by
    unfold trackedKey at hkey
    split at hkey
    · exact hkey
    · exact absurd hkey (by simp)
  have hkeys : windowKeys (adv.track now event key).window
      = windowKeys (AiAdvisor.evict now (fromSecs adv.cfg.windowSecs) adv.window adv.counts).1
        ++ [key] := by
    unfold AiAdvisor.track windowKeys
    simp only [List.filterMap_append, List.filterMap_cons, hpattern, List.filterMap_nil]
  -- The increment does not wrap: what it counts to is the number of recent events.
  have hroom := recentCount_lt key hclock hfew
  rw [← count_windowKeys, ← window_track_eq_recent hm hkey hclock, hkeys, List.count_append,
    List.count_singleton_self] at hroom
  rw [hkeys]
  exact tallies_increment hevict.2 key hroom

/-- The count an event is judged by. -/
theorem count_track (hm : Mirrors cfg adv calls done) (hkey : trackedKey event = some key)
    (hclock : Clocked (calls ++ [(now, event)])) (hfew : Uncrowded cfg (calls ++ [(now, event)])) :
    (((adv.track now event key).counts.lookup key).getD 0).toNat
      = recentCount cfg (calls ++ [(now, event)]) key now := by
  rw [tallies_track hm hkey hclock hfew key, window_track_eq_recent hm hkey hclock,
    count_windowKeys]

/-- A pattern cools down as long as any of its passes does, since the last one
    is the one remembered. -/
theorem cooling_eq_false_iff (hm : Mirrors cfg adv calls done)
    (hdone : done.Pairwise (fun p q => p.1 ≤ q.1)) :
    adv.cooling now key = false ↔
      ∀ t, (t, key) ∈ done → ¬ now - t < fromSecs cfg.cooldownSeconds := by
  have hmem : ∀ t, (t, key) ∈ done ↔ (t, key) ∈ done.filter (fun p => decide (p.2 = key)) := by
    intro t
    rw [List.mem_filter]
    exact ⟨fun h => ⟨h, decide_eq_true rfl⟩, And.left⟩
  have hsorted := hdone.filter (fun p => decide (p.2 = key))
  unfold AiAdvisor.cooling
  rw [hm.cooldowns key, hm.cfg_eq]
  simp only [hmem]
  cases hlast : (done.filter (fun p => decide (p.2 = key))).getLast? with
  | none =>
      rw [List.getLast?_eq_none_iff] at hlast
      simp [hlast]
  | some p =>
      rcases List.getLast?_eq_some_iff.mp hlast with ⟨front, hfront⟩
      have hp : p.2 = key := by
        have hpmem : p ∈ done.filter (fun p => decide (p.2 = key)) := by simp [hfront]
        simpa using List.of_mem_filter hpmem
      simp only [Option.map_some, decide_eq_false_iff_not]
      rw [hfront] at hsorted ⊢
      constructor
      · intro hcool t ht
        -- The passes are in order of time, and this is the last one.
        have hle : t ≤ p.1 := by
          rcases List.mem_append.mp ht with ht | ht
          · exact (List.pairwise_append.mp hsorted).2.2 _ ht p List.mem_cons_self
          · exact Nat.le_of_eq (congrArg Prod.fst (List.mem_singleton.mp ht))
        omega
      · intro hall
        exact hall p.1 (List.mem_append_right front (by simp [← hp]))

/-- One call keeps the state mirroring the history, with its pass if it is one. -/
theorem mirrors_gate (hm : Mirrors cfg adv calls done) (henabled : cfg.enabled = true)
    (hclock : Clocked (calls ++ [(now, event)])) (hfew : Uncrowded cfg (calls ++ [(now, event)])) :
    Mirrors cfg (adv.gate now event).1 (calls ++ [(now, event)])
      (done ++ (passOf now (adv.gate now event).2).toList) := by
  have henabled' : adv.cfg.enabled = true := by rw [hm.cfg_eq]; exact henabled
  cases hkey : trackedKey event with
  | none =>
      rw [gate_untracked henabled' hkey]
      simp only [passOf, Option.toList_none, List.append_nil]
      exact { hm with window := by rw [trackedCalls_append_none hkey]; exact hm.window }
  | some key =>
      have htrack : Mirrors cfg (adv.track now event key) (calls ++ [(now, event)]) done := {
        cfg_eq := hm.cfg_eq
        window := represents_track hm hkey hclock
        counts := tallies_track hm hkey hclock hfew
        cooldowns := hm.cooldowns }
      rcases gate_tracked now henabled' hkey with ⟨count, context, _, hgate⟩
      rw [hgate]
      split
      · -- The event is tracked and counted, and the threshold is not reached.
        simp only [passOf, Option.toList_none, List.append_nil]
        exact htrack
      · split
        · -- The pattern is cooling down.
          simp only [passOf, Option.toList_none, List.append_nil]
          exact htrack
        · -- The event passes, and the pattern's cooldown starts over.
          refine { htrack with cooldowns := ?_ }
          intro k
          simp only [passOf, Option.toList_some, List.filter_append]
          by_cases hk : k = key
          · rw [hk, AList.lookup_insert]
            simp
          · rw [AList.lookup_insert_ne hk, hm.cooldowns k]
            rw [List.filter_cons_of_neg (by simpa using fun heq => hk heq.symm), List.filter_nil,
              List.append_nil]

namespace AiAdvisor

theorem after_snoc (adv : AiAdvisor) (calls : List Call) (c : Call) :
    adv.after (calls ++ [c]) = ((adv.after calls).gate c.1 c.2).1 := by
  unfold after
  rw [List.foldl_append, List.foldl_cons, List.foldl_nil]

theorem passes_snoc (adv : AiAdvisor) (calls : List Call) (c : Call) :
    adv.passes (calls ++ [c])
      = adv.passes calls ++ (passOf c.1 ((adv.after calls).gate c.1 c.2).2).toList := by
  induction calls generalizing adv with
  | nil => simp only [List.nil_append, passes, List.append_nil, after, List.foldl_nil]
  | cons d rest ih =>
      rw [List.cons_append, passes, passes, ih, List.append_assoc]
      rfl

theorem passOf_sublist (now : Nat) (g : Gate) :
    ((passOf now g).toList.map Prod.fst).Sublist [now] := by
  cases g with
  | passed key count context => exact List.Sublist.refl [now]
  | _ => exact List.nil_sublist [now]

/-- Passes come at the instants of calls. -/
theorem passes_sublist (adv : AiAdvisor) (calls : List Call) :
    ((adv.passes calls).map Prod.fst).Sublist (calls.map Prod.fst) := by
  induction calls generalizing adv with
  | nil => exact List.nil_sublist []
  | cons c rest ih =>
      rw [passes, List.map_append, List.map_cons]
      exact (passOf_sublist c.1 _).append (ih _)

end AiAdvisor

theorem Uncrowded.of_append {calls' : List Call} (h : Uncrowded cfg (calls ++ calls')) :
    Uncrowded cfg calls := by
  intro now
  refine Nat.lt_of_le_of_lt ?_ (h now)
  exact (((List.sublist_append_left calls calls').filter _).filter _).length_le

/-- The state mirrors the history after every run. -/
theorem mirrors_after (rulesPath : String) (henabled : cfg.enabled = true)
    (hclock : Clocked calls) (hfew : Uncrowded cfg calls) :
    Mirrors cfg ((AiAdvisor.new cfg rulesPath).after calls) calls
      ((AiAdvisor.new cfg rulesPath).passes calls) := by
  -- The invariant of a run, by induction on its calls from their end. What is
  -- assumed of the clock and of the windows holds of the calls before the last.
  induction calls using List.reverseRecOn with
  | nil =>
      exact {
        cfg_eq := rfl
        window := Represents.nil trimming_id
        counts := Tallies.nil
        cooldowns := fun _ => rfl }
  | append_singleton calls c ih =>
      rw [AiAdvisor.after_snoc, AiAdvisor.passes_snoc]
      exact mirrors_gate (ih (List.pairwise_append.mp hclock).1 hfew.of_append) henabled hclock hfew

/-- The advisor gets past its checks at a tracked event exactly when the pattern
    is frequent enough in the window that ends there and no earlier pass of it
    is still cooling down. -/
theorem passes_iff (cfg : AiAdvisorConfig) (rulesPath : String) (henabled : cfg.enabled = true)
    (calls : List Call) (now : Nat) (event : NormalizedEvent) (key : PatternKey)
    (hkey : trackedKey event = some key) (hclock : Clocked (calls ++ [(now, event)]))
    (hfew : Uncrowded cfg (calls ++ [(now, event)])) :
    (∃ count context, (((AiAdvisor.new cfg rulesPath).after calls).gate now event).2
        = .passed key count context) ↔
      cfg.triggerThreshold.toNat ≤ recentCount cfg (calls ++ [(now, event)]) key now ∧
        ∀ t, (t, key) ∈ (AiAdvisor.new cfg rulesPath).passes calls →
          ¬ now - t < fromSecs cfg.cooldownSeconds := by
  have hbefore := (List.pairwise_append.mp hclock).1
  have hm := mirrors_after rulesPath henabled hbefore hfew.of_append
  -- Passes come in order of time, so the remembered pass is the last to cool down.
  have hdone : ((AiAdvisor.new cfg rulesPath).passes calls).Pairwise (fun p q => p.1 ≤ q.1) :=
    List.pairwise_map.mp ((List.pairwise_map.mpr hbefore).sublist
      ((AiAdvisor.new cfg rulesPath).passes_sublist calls))
  have henabled' : ((AiAdvisor.new cfg rulesPath).after calls).cfg.enabled = true := by
    rw [hm.cfg_eq]
    exact henabled
  rcases gate_tracked now henabled' hkey with ⟨count, context, hcount, hgate⟩
  have hcount' : count.toNat = recentCount cfg (calls ++ [(now, event)]) key now := by
    rw [hcount]
    exact count_track hm hkey hclock hfew
  rw [← cooling_eq_false_iff hm hdone, ← hcount', hgate, hm.cfg_eq]
  by_cases hbelow : count < cfg.triggerThreshold
  · rw [if_pos hbelow]
    have hlt := UInt32.lt_iff_toNat_lt.mp hbelow
    exact ⟨fun ⟨_, _, h⟩ => absurd h (by simp), fun h => absurd h.1 (by omega)⟩
  · have hle : cfg.triggerThreshold.toNat ≤ count.toNat := by
      rw [UInt32.lt_iff_toNat_lt] at hbelow
      omega
    rw [if_neg hbelow]
    cases hcool : AiAdvisor.cooling _ now key with
    | true => simp
    | false => simp [hle]

/-- A configuration that asks at the second event within a second. -/
def eagerAdvisor : AiAdvisorConfig :=
  { AiAdvisorConfig.default with enabled := true, triggerThreshold := 2, windowSecs := 1 }

/-- The second alert comes exactly one second after the first, and passes. -/
theorem second_nc_passes :
    ∃ count context, (((AiAdvisor.new eagerAdvisor "/rules").after [(0, .plainAlert "nc")]).gate
      1000000000 (.plainAlert "nc")).2 = .passed ⟨"nc", "nc", "Alerted"⟩ count context := by
  refine (passes_iff eagerAdvisor "/rules" rfl [(0, .plainAlert "nc")] 1000000000
    (.plainAlert "nc") ⟨"nc", "nc", "Alerted"⟩ (by decide) ?_ ?_).mpr ⟨by decide, ?_⟩
  · simp [Ordered]
  · intro now
    refine Nat.lt_of_le_of_lt (List.length_filter_le _ _) ?_
    exact Nat.lt_of_le_of_lt (List.length_filter_le _ _) (by decide)
  · have hnone : (AiAdvisor.new eagerAdvisor "/rules").passes [(0, .plainAlert "nc")] = [] := by
      rfl
    intro t ht
    rw [hnone] at ht
    exact absurd ht List.not_mem_nil

end VectorGuard
