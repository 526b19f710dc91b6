import VectorGuard.Core.Approval
import VectorGuard.Core.Config
import VectorGuard.Core.Incident

/-!
# AI Advisor

When the advisor asks a language model for rules (`ai_advisor/mod.rs`). Every
blocked or alerted event with a pattern is put into a window and counted under
its pattern; once a pattern is frequent enough in the window and not cooling
down from its last time, the request is made.

`gate` is `analyze` up to the point where the request starts, with the events
it would be built from. Instants and durations are nanoseconds.

## Main definitions

* `PatternKey`, `patternKey`: What makes two events instances of one pattern.
* `AiAdvisor`: The window, the counts and the cooldowns.
* `AiAdvisor.gate`: What the advisor does with an event before it asks.
-/

namespace VectorGuard

structure PatternKey where
  binary : String
  detail : String
  action : String
  deriving DecidableEq, Repr

/-- `AiAdvisor::pattern_key`. -/
def patternKey (event : NormalizedEvent) : Option PatternKey :=
  let key (detail : String) : PatternKey :=
    { binary := event.process.binary, detail, action := event.action.debug }
  match event.eventType with
  | .fileAccess path _ => some (key path)
  | .network _ _ port _ => some (key (toString port))
  | .exec => some (key event.process.binary)
  | _ => none

abbrev Counts := AList (fun _ : PatternKey => UInt32)

/-- Count a key once more. -/
def increment (counts : Counts) (key : PatternKey) : Counts :=
  counts.insert key ((counts.lookup key).getD 0 + 1)

/-- Count a key once less and forget a count of zero. -/
def decrement (counts : Counts) (key : PatternKey) : Counts :=
  match counts.lookup key with
  | none => counts
  | some c =>
    let c := if c = 0 then 0 else c - 1
    if c = 0 then counts.erase key else counts.insert key c

structure AiAdvisor where
  cfg : AiAdvisorConfig
  store : ApprovalStore
  rulesPath : String
  window : List (Nat × NormalizedEvent)
  counts : Counts
  cooldowns : AList (fun _ : PatternKey => Nat)

/-- How far `analyze` gets with an event. -/
inductive Gate
  /-- The advisor is disabled, or does not track the event. -/
  | skipped
  | belowThreshold
  | coolingDown
  /-- A request is due, with the newest events of the window first. -/
  | passed (key : PatternKey) (count : UInt32) (context : List NormalizedEvent)

/-- `Duration::from_secs`. -/
def fromSecs (secs : UInt64) : Nat := secs.toNat * 1000000000

namespace AiAdvisor

/-- `AiAdvisor::new`. -/
def new (cfg : AiAdvisorConfig) (rulesPath : String) : AiAdvisor where
  cfg := cfg
  store := ⟨cfg.pendingDir, rulesPath⟩
  rulesPath := rulesPath
  window := []
  counts := ∅
  cooldowns := ∅

/-- `AiAdvisor::update_config`. -/
def updateConfig (adv : AiAdvisor) (cfg : AiAdvisorConfig) : AiAdvisor :=
  { adv with store := ⟨cfg.pendingDir, adv.rulesPath⟩, cfg := cfg }

/-- Evict the events at the front of the window that have expired, each with
    its count. -/
def evict (now windowDur : Nat) :
    List (Nat × NormalizedEvent) → Counts → List (Nat × NormalizedEvent) × Counts
  | [], counts => ([], counts)
  | (ts, old) :: rest, counts =>
    if now - ts > windowDur then
      -- Only what has a key was ever put in.
      match patternKey old with
      | some oldKey => evict now windowDur rest (decrement counts oldKey)
      | none => evict now windowDur rest counts
    else ((ts, old) :: rest, counts)

/-- `AiAdvisor::analyze`, until it turns to the provider. -/
def gate (adv : AiAdvisor) (now : Nat) (event : NormalizedEvent) : AiAdvisor × Gate :=
  if !adv.cfg.enabled then (adv, .skipped)
  else if !isIncident event.action then (adv, .skipped)
  else match patternKey event with
    | none => (adv, .skipped)
    | some key =>
      let (window, counts) := evict now (fromSecs adv.cfg.windowSecs) adv.window adv.counts
      -- The event is counted before it is judged, and stays in the window either way.
      let window := window ++ [(now, event)]
      let counts := increment counts key
      let count := (counts.lookup key).getD 0
      let adv := { adv with window, counts }
      if count < adv.cfg.triggerThreshold then (adv, .belowThreshold)
      else
        let cooling := match adv.cooldowns.lookup key with
          | some last => decide (now - last < fromSecs adv.cfg.cooldownSeconds)
          | none => false
        if cooling then (adv, .coolingDown)
        else
          let context := (window.reverse.take adv.cfg.contextWindowSize).map Prod.snd
          ({ adv with cooldowns := adv.cooldowns.insert key now }, .passed key count context)

end AiAdvisor

end VectorGuard
