import Mathlib.Algebra.BigOperators.Group.List.Lemmas
import Mathlib.Algebra.Group.Action.Defs
import Mathlib.Algebra.Order.BigOperators.Group.List
import Mathlib.Algebra.Order.Ring.Nat
import VectorGuard.Theory.AdvisorCounts
import VectorGuard.Theory.RuleExpiry
import VectorGuard.Core.Advice

/-!
# Requests of the Advisor

How often the provider is asked, and what its answers can do to the file system.

Requests cost money, and every answer writes files. What bounds both is the cooldown: a
request that follows another for the same pattern comes at least as much later as the
configuration of that moment says. Neither a clock that goes back nor a new configuration
breaks this, since the time of the last request is kept through both. So the number of
requests depends on how long the advisor runs and how many patterns it meets, and not on
how many events there are; and all that happens to files is that the rules of these
answers are staged.

## Main definitions

* `AdvisorCall`: What is done with an advisor, and what it meets outside.
* `requestsOf`, `stagingsOf`: The requests of some calls, and what they stage.

## Theorems

* `length_le_of_spaced`: Instants that keep a distance are not many.
* `requestsOf_spaced`: The requests for one pattern keep the cooldown.
* `AiAdvisor.requests_bounded`: Requests and staged rules are not many.
-/

namespace VectorGuard

/-- Instants that keep a distance are not more than fit in the time they lie in. -/
theorem length_le_of_spaced {d : Nat} (first last : Nat) (hd : 0 < d) {times : List Nat}
    (hspaced : times.Pairwise (fun t t' => t + d ≤ t'))
    (hspan : ∀ t ∈ times, first ≤ t ∧ t ≤ last) : times.length ≤ (last - first) / d + 1 := by
  induction times generalizing first with
  | nil =>
      exact Nat.zero_le _
  | cons t rest ih =>
      rw [List.pairwise_cons] at hspaced
      have ht := hspan t List.mem_cons_self
      by_cases hrest : rest = []
      · rw [hrest]
        exact Nat.le_add_left 1 _
      · -- The rest starts a distance later.
        have hlater := ih (t + d) hspaced.2 (fun t' ht' =>
          ⟨hspaced.1 t' ht', (hspan t' (List.mem_cons_of_mem t ht')).2⟩)
        rcases List.exists_mem_of_ne_nil rest hrest with ⟨t', ht'⟩
        have hfits := Nat.le_trans (hspaced.1 t' ht') (hspan t' (List.mem_cons_of_mem t ht')).2
        have hdiv : (last - (t + d)) / d + 1 ≤ (last - first) / d := by
          rw [← Nat.add_div_right _ hd]
          exact Nat.div_le_div_right (by omega)
        rw [List.length_cons]
        omega

/-- A list without many repetitions is not much longer than what it is from. -/
theorem length_le_of_count_le {α : Type*} [DecidableEq α] (among : List α) {l : List α} {n : Nat}
    (hcount : ∀ a, l.count a ≤ n) (hsub : l ⊆ among) : l.length ≤ among.dedup.length * n := by
  have hdedup : l.dedup.length ≤ among.dedup.length := by
    refine (List.subperm_of_subset (List.nodup_dedup l) (fun a ha => ?_)).length_le
    rw [List.mem_dedup] at ha ⊢
    exact hsub ha
  have hsum : (l.dedup.map (fun a => l.count a)).sum ≤ (l.dedup.map (fun a => l.count a)).length • n := by
    refine List.sum_le_card_nsmul _ n (fun k hk => ?_)
    rcases List.mem_map.mp hk with ⟨a, _, rfl⟩
    exact hcount a
  rw [List.sum_map_count_dedup_eq_length, List.length_map, smul_eq_mul] at hsum
  exact hsum.trans (Nat.mul_le_mul_right n hdedup)

/-- What is done with an advisor. An analysis meets the variables of the environment, the
    answer of the provider and the readings of a clock. -/
inductive AdvisorCall
  | analyze (env : String → Option String) (response : Option Value) (now : Nat)
      (clock : Nat → Nat) (event : NormalizedEvent)
  | updateConfig (cfg : AiAdvisorConfig)

/-- A rule that is staged: how, where, when. -/
structure StagingCall where
  mode : ApprovalMode
  store : ApprovalStore
  now : Nat
  rule : Rule

namespace AdvisorCall

def instant : AdvisorCall → Option Nat
  | analyze _ _ now _ _ => some now
  | updateConfig _ => none

def config : AdvisorCall → Option AiAdvisorConfig
  | analyze _ _ _ _ _ => none
  | updateConfig cfg => some cfg

/-- The pattern a call is about. -/
def pattern : AdvisorCall → Option PatternKey
  | analyze _ _ _ _ event => trackedKey event
  | updateConfig _ => none

/-- The request a call makes. -/
def request (adv : AiAdvisor) : AdvisorCall → Option (Nat × PatternKey)
  | analyze env _ now _ event =>
    match (adv.gate now event).2 with
    | .passed key _ _ => ((adv.gate now event).1.resolveApiKey env).map (fun _ => (now, key))
    | _ => none
  | updateConfig _ => none

variable (toText : RuleSet → Option String) (fromStr : String → Option RuleSet)

def apply (s : AiAdvisor × FileTree) : AdvisorCall → AiAdvisor × FileTree
  | analyze env response now clock event =>
    s.1.analyze toText fromStr env response s.2 now clock event
  | updateConfig cfg => (s.1.updateConfig cfg, s.2)

/-- What a call stages. -/
def stagings (adv : AiAdvisor) : AdvisorCall → List StagingCall
  | call@(analyze _ response _ clock _) =>
    match call.request adv with
    | none => []
    | some _ =>
      (proposedRules fromStr adv.cfg.provider adv.cfg.maxRulesPerFire response).zipIdx.map
        (fun (rule, i) => ⟨adv.cfg.approvalMode, adv.store, clock i, rule⟩)
  | updateConfig _ => []

end AdvisorCall

section Runs

variable (toText : RuleSet → Option String) (fromStr : String → Option RuleSet)

/-- The advisor and the files after some calls. -/
def advised (s : AiAdvisor × FileTree) (calls : List AdvisorCall) : AiAdvisor × FileTree :=
  calls.foldl (AdvisorCall.apply toText fromStr) s

/-- The requests of some calls, with their instants. -/
def requestsOf : AiAdvisor × FileTree → List AdvisorCall → List (Nat × PatternKey)
  | _, [] => []
  | s, call :: calls =>
    (call.request s.1).toList ++ requestsOf (call.apply toText fromStr s) calls

/-- What some calls stage. -/
def stagingsOf : AiAdvisor × FileTree → List AdvisorCall → List StagingCall
  | _, [] => []
  | s, call :: calls =>
    call.stagings fromStr s.1 ++ stagingsOf (call.apply toText fromStr s) calls

/-- Staging a rule. -/
def StagingCall.apply (fs : FileTree) (c : StagingCall) : FileTree :=
  (c.store.stageCall toText c.mode fs c.now c.rule).1

end Runs

variable {toText : RuleSet → Option String} {fromStr : String → Option RuleSet}
  {adv : AiAdvisor} {fs : FileTree} {now : Nat} {event : NormalizedEvent}

/-! ### One call -/

/-- A call asks only about the pattern of its event, after its cooldown, and remembers
    when. Any other keeps the times it knows. -/
theorem gate_request (adv : AiAdvisor) (now : Nat) (event : NormalizedEvent) :
    (adv.gate now event).1.cfg = adv.cfg ∧ (adv.gate now event).1.store = adv.store ∧
    (((∀ key count context, (adv.gate now event).2 ≠ .passed key count context) ∧
        (adv.gate now event).1.cooldowns = adv.cooldowns) ∨
      ∃ key count context, (adv.gate now event).2 = .passed key count context ∧
        trackedKey event = some key ∧ adv.cooling now key = false ∧
        (adv.gate now event).1.cooldowns = adv.cooldowns.insert key now) := by
  cases henabled : adv.cfg.enabled with
  | false =>
      have hgate : adv.gate now event = (adv, .skipped) := by
        unfold AiAdvisor.gate
        rw [henabled]
        rfl
      rw [hgate]
      exact ⟨rfl, rfl, .inl ⟨fun _ _ _ h => (by cases h), rfl⟩⟩
  | true =>
      cases hkey : trackedKey event with
      | none =>
          rw [gate_untracked henabled hkey]
          exact ⟨rfl, rfl, .inl ⟨fun _ _ _ h => (by cases h), rfl⟩⟩
      | some key =>
          rcases gate_tracked now henabled hkey with ⟨count, context, _, hgate⟩
          rw [hgate]
          split
          · exact ⟨rfl, rfl, .inl ⟨fun _ _ _ h => (by cases h), rfl⟩⟩
          · split
            · exact ⟨rfl, rfl, .inl ⟨fun _ _ _ h => (by cases h), rfl⟩⟩
            · next hcool =>
                exact ⟨rfl, rfl, .inr ⟨key, count, context, rfl, rfl,
                  Bool.eq_false_iff.mpr hcool, rfl⟩⟩

theorem fst_analyze (env : String → Option String) (response : Option Value)
    (clock : Nat → Nat) :
    (adv.analyze toText fromStr env response fs now clock event).1 = (adv.gate now event).1 := by
  unfold AiAdvisor.analyze
  split
  · next h =>
      rw [h]
      split <;> rfl
  · next h =>
      rw [h]

/-- A cooldown of at least some time, and answers with no more than some rules. -/
def Within (d m : Nat) (cfg : AiAdvisorConfig) : Prop :=
  d ≤ fromSecs cfg.cooldownSeconds ∧ cfg.maxRulesPerFire ≤ m

variable {d m : Nat} {s : AiAdvisor × FileTree} {call : AdvisorCall} {calls : List AdvisorCall}

theorem within_apply (hcfg : Within d m s.1.cfg) (hnew : ∀ cfg ∈ call.config, Within d m cfg) :
    Within d m (call.apply toText fromStr s).1.cfg := by
  cases call with
  | analyze env response now clock event =>
      unfold AdvisorCall.apply
      rw [fst_analyze, (gate_request s.1 now event).1]
      exact hcfg
  | updateConfig cfg =>
      exact hnew cfg rfl

/-- Of a pattern that is not cooling the last request is a cooldown ago. -/
theorem le_of_not_cooling {key : PatternKey} {last : Nat} (hd : 0 < d) (hcfg : Within d m adv.cfg)
    (hcool : adv.cooling now key = false) (hlast : adv.cooldowns.lookup key = some last) :
    last + d ≤ now := by
  unfold AiAdvisor.cooling at hcool
  rw [hlast] at hcool
  have hlong := of_decide_eq_false hcool
  have hleast := hcfg.1
  omega

variable (toText fromStr) in
/-- A request is about the pattern of its call, and keeps the cooldown. -/
theorem request_spec {t : Nat} {key : PatternKey} (hd : 0 < d) (hcfg : Within d m s.1.cfg)
    (h : call.request s.1 = some (t, key)) :
    call.instant = some t ∧ call.pattern = some key ∧
      (∀ last, s.1.cooldowns.lookup key = some last → last + d ≤ t) ∧
      (call.apply toText fromStr s).1.cooldowns.lookup key = some t := by
  cases call with
  | updateConfig cfg =>
      exact absurd h (Option.some_ne_none _).symm
  | analyze env response now clock event =>
      unfold AdvisorCall.request at h
      dsimp only at h
      rcases (gate_request s.1 now event).2.2 with
        ⟨hnot, _⟩ | ⟨key', count, context, hpassed, hkey, hcool, hcooldowns⟩
      · split at h
        · next hpassed => exact absurd hpassed (hnot _ _ _)
        · exact absurd h (Option.some_ne_none _).symm
      · rw [hpassed] at h
        dsimp only at h
        rcases Option.map_eq_some_iff.mp h with ⟨_, _, hrequest⟩
        rcases Prod.mk.inj hrequest with ⟨rfl, rfl⟩
        refine ⟨rfl, hkey, fun last hlast => le_of_not_cooling hd hcfg hcool hlast, ?_⟩
        unfold AdvisorCall.apply
        rw [fst_analyze, hcooldowns, AList.lookup_insert]

variable (toText fromStr call) in
/-- The time that is kept for a pattern only grows. -/
theorem cooldowns_apply {key : PatternKey} {last : Nat} (hd : 0 < d) (hcfg : Within d m s.1.cfg)
    (hlast : s.1.cooldowns.lookup key = some last) :
    ∃ last', (call.apply toText fromStr s).1.cooldowns.lookup key = some last' ∧ last ≤ last' := by
  cases call with
  | updateConfig cfg =>
      exact ⟨last, hlast, Nat.le_refl _⟩
  | analyze env response now clock event =>
      unfold AdvisorCall.apply
      rw [fst_analyze]
      rcases (gate_request s.1 now event).2.2 with
        ⟨_, hsame⟩ | ⟨key', _, _, _, _, hcool, hcooldowns⟩
      · rw [hsame]
        exact ⟨last, hlast, Nat.le_refl _⟩
      · rw [hcooldowns]
        by_cases hkey : key = key'
        · rw [hkey, AList.lookup_insert]
          rw [← hkey] at hcool
          exact ⟨now, rfl, Nat.le_of_add_right_le (le_of_not_cooling hd hcfg hcool hlast)⟩
        · rw [AList.lookup_insert_ne hkey]
          exact ⟨last, hlast, Nat.le_refl _⟩

/-! ### Runs -/

/-- Every configuration of some calls is within the bounds. -/
def AllWithin (d m : Nat) (calls : List AdvisorCall) : Prop :=
  ∀ cfg ∈ calls.filterMap AdvisorCall.config, Within d m cfg

theorem AllWithin.head (h : AllWithin d m (call :: calls)) : ∀ cfg ∈ call.config, Within d m cfg :=
  fun cfg hcfg => h cfg (List.mem_filterMap.mpr ⟨call, List.mem_cons_self, hcfg⟩)

theorem AllWithin.tail (h : AllWithin d m (call :: calls)) : AllWithin d m calls := by
  intro cfg hcfg
  rcases List.mem_filterMap.mp hcfg with ⟨call', hmem, hcfg⟩
  exact h cfg (List.mem_filterMap.mpr ⟨call', List.mem_cons_of_mem call hmem, hcfg⟩)

/-- No request comes before the cooldown of the one that is remembered is over. -/
theorem requestsOf_after (hd : 0 < d) (hcfg : Within d m s.1.cfg) (hall : AllWithin d m calls)
    {t : Nat} {key : PatternKey} (h : (t, key) ∈ requestsOf toText fromStr s calls) {last : Nat}
    (hlast : s.1.cooldowns.lookup key = some last) : last + d ≤ t := by
  induction calls generalizing s last with
  | nil =>
      exact absurd h List.not_mem_nil
  | cons call calls ih =>
      rcases List.mem_append.mp h with hfirst | hrest
      · exact (request_spec toText fromStr hd hcfg
          (Option.mem_toList.mp hfirst)).2.2.1 last hlast
      · rcases cooldowns_apply toText fromStr call hd hcfg hlast with
          ⟨last', hlast', hle⟩
        have hlater := ih (within_apply hcfg hall.head) hall.tail hrest hlast'
        omega

/-- The requests for one pattern keep the cooldown. -/
theorem requestsOf_spaced (hd : 0 < d) (hcfg : Within d m s.1.cfg) (hall : AllWithin d m calls) :
    (requestsOf toText fromStr s calls).Pairwise (fun r r' => r.2 = r'.2 → r.1 + d ≤ r'.1) := by
  induction calls generalizing s with
  | nil =>
      exact List.Pairwise.nil
  | cons call calls ih =>
      have hcfg' : Within d m (call.apply toText fromStr s).1.cfg := within_apply hcfg hall.head
      unfold requestsOf
      cases hrequest : call.request s.1 with
      | none =>
          exact ih hcfg' hall.tail
      | some r =>
          rcases r with ⟨t, key⟩
          -- The call remembers its own request, and the others come after that.
          have hkept := (request_spec toText fromStr hd hcfg hrequest).2.2.2
          refine List.pairwise_cons.mpr ⟨?_, ih hcfg' hall.tail⟩
          rintro ⟨t', key'⟩ hr heq
          dsimp only at heq
          rw [← heq] at hr
          exact requestsOf_after hd hcfg' hall.tail hr hkept

/-- A request is made at the instant of a call that is about its pattern. -/
theorem mem_requestsOf (hd : 0 < d) (hcfg : Within d m s.1.cfg) (hall : AllWithin d m calls)
    {t : Nat} {key : PatternKey} (h : (t, key) ∈ requestsOf toText fromStr s calls) :
    t ∈ calls.filterMap AdvisorCall.instant ∧ key ∈ calls.filterMap AdvisorCall.pattern := by
  induction calls generalizing s with
  | nil =>
      exact absurd h List.not_mem_nil
  | cons call calls ih =>
      rcases List.mem_append.mp h with hfirst | hrest
      · have hspec := request_spec toText fromStr hd hcfg
          (Option.mem_toList.mp hfirst)
        exact ⟨List.mem_filterMap.mpr ⟨call, List.mem_cons_self, hspec.1⟩,
          List.mem_filterMap.mpr ⟨call, List.mem_cons_self, hspec.2.1⟩⟩
      · rcases ih (within_apply hcfg hall.head) hall.tail hrest with ⟨ht, hkey⟩
        rcases List.mem_filterMap.mp ht with ⟨call', hmem, hinstant⟩
        rcases List.mem_filterMap.mp hkey with ⟨call'', hmem', hpattern⟩
        exact ⟨List.mem_filterMap.mpr ⟨call', List.mem_cons_of_mem call hmem, hinstant⟩,
          List.mem_filterMap.mpr ⟨call'', List.mem_cons_of_mem call hmem', hpattern⟩⟩

variable (toText fromStr s) in
/-- There are no more requests for a pattern than fit in the time of the calls. -/
theorem count_requestsOf_le (hd : 0 < d) (hcfg : Within d m s.1.cfg) (hall : AllWithin d m calls)
    {first last : Nat}
    (hspan : ∀ t ∈ calls.filterMap AdvisorCall.instant, first ≤ t ∧ t ≤ last) (key : PatternKey) :
    ((requestsOf toText fromStr s calls).map Prod.snd).count key ≤ (last - first) / d + 1 := by
  have hspaced : (((requestsOf toText fromStr s calls).filter (fun r => r.2 == key)).map
      Prod.fst).Pairwise (fun t t' => t + d ≤ t') := by
    rw [List.pairwise_map]
    refine ((requestsOf_spaced hd hcfg hall).filter _).imp_of_mem ?_
    intro r r' hr hr' hapart
    have hkey := beq_iff_eq.mp (List.mem_filter.mp hr).2
    have hkey' := beq_iff_eq.mp (List.mem_filter.mp hr').2
    exact hapart (hkey.trans hkey'.symm)
  have hbound := length_le_of_spaced first last hd hspaced (by
    intro t ht
    rcases List.mem_map.mp ht with ⟨r, hr, rfl⟩
    exact hspan _ (mem_requestsOf hd hcfg hall (List.mem_filter.mp hr).1).1)
  rw [List.length_map] at hbound
  rw [List.count_eq_countP, List.countP_map, List.countP_eq_length_filter]
  exact hbound

/-! ### Staging -/

/-- The loop of an analysis stages its rules one after the other. -/
theorem stageRules_eq_foldl (mode : ApprovalMode) (store : ApprovalStore) (fs : FileTree)
    (calls : List (Nat × Rule)) :
    stageRules (store.stageCall toText mode) fs calls
      = (calls.map (fun c => StagingCall.mk mode store c.1 c.2)).foldl
          (StagingCall.apply toText) fs := by
  induction calls generalizing fs with
  | nil =>
      rfl
  | cons c calls ih =>
      exact ih _

variable (toText fromStr call) in
/-- A call stages the rules of its answer, as many as the configuration lets it, and does
    nothing else to files. -/
theorem stagings_spec (hcfg : Within d m s.1.cfg) :
    (call.apply toText fromStr s).2
        = (call.stagings fromStr s.1).foldl (StagingCall.apply toText) s.2 ∧
      (call.stagings fromStr s.1).length ≤ m * (call.request s.1).toList.length := by
  cases call with
  | updateConfig cfg =>
      exact ⟨rfl, Nat.zero_le _⟩
  | analyze env response now clock event =>
      rcases gate_request s.1 now event with ⟨hsamecfg, hsamestore, _⟩
      unfold AdvisorCall.apply AdvisorCall.stagings AdvisorCall.request AiAdvisor.analyze
      dsimp only
      cases hgate : s.1.gate now event with
      | mk adv gate =>
          rw [hgate] at hsamecfg hsamestore
          dsimp only at hsamecfg hsamestore ⊢
          cases gate with
          | passed key count context =>
              dsimp only
              cases hapi : adv.resolveApiKey env with
              | none =>
                  exact ⟨rfl, Nat.zero_le _⟩
              | some apiKey =>
                  dsimp only
                  rw [stageRules_eq_foldl, hsamecfg, hsamestore, List.map_map]
                  refine ⟨rfl, ?_⟩
                  have hproposed : (proposedRules fromStr s.1.cfg.provider s.1.cfg.maxRulesPerFire
                      response).length ≤ m := by
                    unfold proposedRules
                    split
                    · exact Nat.le_trans (List.length_take_le _ _) hcfg.2
                    · exact Nat.zero_le _
                  dsimp only [Option.map_some]
                  rw [List.length_map, List.length_zipIdx]
                  exact hproposed.trans_eq (Nat.mul_one m).symm
          | _ =>
              exact ⟨rfl, Nat.zero_le _⟩

variable (toText fromStr) in
theorem stagingsOf_spec (s : AiAdvisor × FileTree) (hcfg : Within d m s.1.cfg) (hall : AllWithin d m calls) :
    (advised toText fromStr s calls).2
        = (stagingsOf toText fromStr s calls).foldl (StagingCall.apply toText) s.2 ∧
      (stagingsOf toText fromStr s calls).length
        ≤ m * (requestsOf toText fromStr s calls).length := by
  induction calls generalizing s with
  | nil =>
      exact ⟨rfl, Nat.zero_le _⟩
  | cons call calls ih =>
      rcases stagings_spec toText fromStr call hcfg with ⟨hfiles, hfew⟩
      rcases ih (call.apply toText fromStr s) (within_apply hcfg hall.head) hall.tail with
        ⟨hrest, hfewer⟩
      unfold stagingsOf requestsOf
      rw [List.foldl_append, ← hfiles, List.length_append, List.length_append, Nat.mul_add]
      exact ⟨hrest, Nat.add_le_add hfew hfewer⟩

/-- However many events there are, however the configuration changes and whatever the
    provider answers: of a pattern the advisor asks at most once per cooldown, in all at
    most that often for each pattern there is, and what it does to the files is to stage at
    most as many rules as these requests may bring. -/
theorem AiAdvisor.requests_bounded (cfg : AiAdvisorConfig) (rulesPath : String) (fs : FileTree)
    (calls : List AdvisorCall) (hd : 0 < d) (hcfg : Within d m cfg) (hall : AllWithin d m calls)
    (first last : Nat)
    (hspan : ∀ t ∈ calls.filterMap AdvisorCall.instant, first ≤ t ∧ t ≤ last) :
    (∀ key, ((requestsOf toText fromStr (AiAdvisor.new cfg rulesPath, fs) calls).map
        Prod.snd).count key ≤ (last - first) / d + 1) ∧
    (requestsOf toText fromStr (AiAdvisor.new cfg rulesPath, fs) calls).length
      ≤ (calls.filterMap AdvisorCall.pattern).dedup.length * ((last - first) / d + 1) ∧
    (advised toText fromStr (AiAdvisor.new cfg rulesPath, fs) calls).2
      = (stagingsOf toText fromStr (AiAdvisor.new cfg rulesPath, fs) calls).foldl
          (StagingCall.apply toText) fs ∧
    (stagingsOf toText fromStr (AiAdvisor.new cfg rulesPath, fs) calls).length
      ≤ m * (requestsOf toText fromStr (AiAdvisor.new cfg rulesPath, fs) calls).length := by
  have hcount := count_requestsOf_le toText fromStr (AiAdvisor.new cfg rulesPath, fs) hd hcfg hall
    hspan
  have hstaged := stagingsOf_spec toText fromStr (AiAdvisor.new cfg rulesPath, fs) hcfg hall
  refine ⟨hcount, ?_, hstaged⟩
  have hlength := length_le_of_count_le (calls.filterMap AdvisorCall.pattern) hcount (by
    intro key hkey
    rcases List.mem_map.mp hkey with ⟨r, hr, rfl⟩
    exact (mem_requestsOf (s := (AiAdvisor.new cfg rulesPath, fs)) hd hcfg hall hr).2)
  rw [List.length_map] at hlength
  exact hlength

/-- Three alerts in a second, with a key in the environment and a provider that answers
    nothing. -/
def threeAlerts : List AdvisorCall :=
  [0, 500000000, 1000000000].map (fun now =>
    .analyze (fun _ => some "key") none now (fun _ => now) (.plainAlert "nc"))

/-- They lead to one request at most, and to no rule. -/
theorem threeAlerts_bounded :
    (∀ key, ((requestsOf (fun _ => some "") (fun _ => none)
        (AiAdvisor.new eagerAdvisor "/rules", emptyRoot) threeAlerts).map Prod.snd).count key
      ≤ (1000000000 - 0) / 300000000000 + 1) ∧
    (requestsOf (fun _ => some "") (fun _ => none)
        (AiAdvisor.new eagerAdvisor "/rules", emptyRoot) threeAlerts).length
      ≤ (threeAlerts.filterMap AdvisorCall.pattern).dedup.length
        * ((1000000000 - 0) / 300000000000 + 1) ∧
    (advised (fun _ => some "") (fun _ => none)
        (AiAdvisor.new eagerAdvisor "/rules", emptyRoot) threeAlerts).2
      = (stagingsOf (fun _ => some "") (fun _ => none)
          (AiAdvisor.new eagerAdvisor "/rules", emptyRoot) threeAlerts).foldl
            (StagingCall.apply (fun _ => some "")) emptyRoot ∧
    (stagingsOf (fun _ => some "") (fun _ => none)
        (AiAdvisor.new eagerAdvisor "/rules", emptyRoot) threeAlerts).length
      ≤ 3 * (requestsOf (fun _ => some "") (fun _ => none)
          (AiAdvisor.new eagerAdvisor "/rules", emptyRoot) threeAlerts).length := by
  refine AiAdvisor.requests_bounded eagerAdvisor "/rules" emptyRoot threeAlerts (by decide)
    ⟨by decide, by decide⟩ (fun cfg hcfg => ?_) 0 1000000000 (fun t ht => ?_)
  · exact absurd hcfg List.not_mem_nil
  · have htimes : threeAlerts.filterMap AdvisorCall.instant = [0, 500000000, 1000000000] := rfl
    rw [htimes] at ht
    simp only [List.mem_cons, List.not_mem_nil, or_false] at ht
    omega

end VectorGuard
