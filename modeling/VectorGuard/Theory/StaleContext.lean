import VectorGuard.Core.SlowPath
import VectorGuard.Lib.SlidingWindow

/-!
# Stale Context

What the search vector of an event depends on.

A process's ring stands for its history in the sense of a sliding window: at
every later time its recent entries are the last recent entries of the history.
But the ring is pruned when an event is recorded, by the time of that event, and
read before. An event that comes after a gap therefore meets entries that have
left the window. Where the ring holds none of those, the vector is a function of
the event and of the recent entries alone.

## Main definitions

* `SlowPath.entryOf`: What an event is recorded as.
* `SlowPath.history`: The entries of a process's earlier events.
* `ContextWindow.ring`: What is stored for a process.

## Theorems

* `represents_after`: The ring stands for the history after every run.
* `searched_eq_of_fresh`: Without old entries in the rings, runs with the same
  recent history search for the same vector.
-/

namespace VectorGuard

open SlidingWindow

namespace SlowPath

/-- What an event is recorded as, none when its analysis ends before that. -/
def entryOf (sp : SlowPath) (event : NormalizedEvent) : Option (UInt64 × List Float32) :=
  if !sp.enabled || !sp.available then none
  else if event.action = .blocked then none
  else match sp.embedder.embed event with
    | .error _ => none
    | .ok vector => some (event.timestamp, vector)

/-- The detector after some events. -/
def after (sp : SlowPath) (events : List NormalizedEvent) : SlowPath :=
  events.foldl (fun sp event => (sp.analyze event).slowPath) sp

/-- The entries of a process's events, oldest first. -/
def history (sp : SlowPath) (events : List NormalizedEvent) (pid : UInt32) : Ring :=
  (events.filter (fun event => decide (event.process.pid = pid))).filterMap sp.entryOf

end SlowPath

/-- The time of an entry. -/
def entryTime (e : UInt64 × List Float32) : Nat := e.1.toNat

/-- The width of the window of a detector. -/
def SlowPath.width (sp : SlowPath) : Nat := sp.context.windowNs.toNat

/-- The recent entries of a history, at most as many as a ring holds. -/
def recentHistory (sp : SlowPath) (events : List NormalizedEvent) (pid : UInt32) (now : UInt64) :
    Ring :=
  lastN maxPerPid (recent entryTime sp.width now.toNat (sp.history events pid))

variable (sp : SlowPath)

theorem lt_saturatingSub_iff (ts now window : UInt64) :
    ts < ContextWindow.saturatingSub now window ↔ window.toNat < now.toNat - ts.toNat := by
  unfold ContextWindow.saturatingSub
  -- The subtraction stops at zero where the clock is younger than the window.
  split
  · next hle =>
      rw [UInt64.lt_iff_toNat_lt, UInt64.toNat_sub_of_le now window hle]
      have := UInt64.le_iff_toNat_le.mp hle
      omega
  · next hle =>
      rw [UInt64.lt_iff_toNat_lt]
      rw [UInt64.le_iff_toNat_le] at hle
      have hzero : (0 : UInt64).toNat = 0 := rfl
      omega

/-- Pruning a ring in order of time keeps its last recent entries. -/
theorem prunedRing_eq (r : Ring) (now window : UInt64) (hr : Ordered entryTime r) :
    ContextWindow.prunedRing r (ContextWindow.saturatingSub now window)
      = lastN maxPerPid (recent entryTime window.toNat now.toNat r) := by
  rw [← dropWhile_expired now.toNat r hr]
  unfold ContextWindow.prunedRing lastN
  have hpred : (fun e : UInt64 × List Float32 =>
      decide (e.1 < ContextWindow.saturatingSub now window))
      = (fun e => decide (window.toNat < now.toNat - entryTime e)) := by
    funext e
    rw [decide_eq_decide]
    exact lt_saturatingSub_iff e.1 now window
  rw [hpred]

/-- What is stored for a process in a context window. -/
def ContextWindow.ring (cw : ContextWindow) (pid : UInt32) : Ring := (cw.store.lookup pid).getD []

theorem ring_push_self (cw : ContextWindow) (pid : UInt32) (ts : UInt64) (v : List Float32) :
    (cw.push pid ts v).ring pid = ContextWindow.prunedRing (cw.ring pid ++ [(ts, v)])
      (ContextWindow.saturatingSub ts cw.windowNs) := by
  unfold ContextWindow.ring ContextWindow.push
  rw [AList.lookup_insert, Option.getD_some]

theorem ring_push_of_ne (cw : ContextWindow) (pid pid' : UInt32) (ts : UInt64) (v : List Float32)
    (hne : pid' ≠ pid) : (cw.push pid ts v).ring pid' = cw.ring pid' := by
  unfold ContextWindow.ring ContextWindow.push
  rw [AList.lookup_insert_ne hne]

/-- Pruning keeps the rings that hold something. -/
theorem lookup_pruneStalePids (cw : ContextWindow) (pid : UInt32) :
    cw.pruneStalePids.store.lookup pid = (cw.store.lookup pid).filter (fun r => !r.isEmpty) := by
  ext r
  rw [← Option.mem_def, ← Option.mem_def, Option.mem_filter_iff, AList.mem_lookup_iff,
    AList.mem_lookup_iff]
  exact List.mem_filter

/-- Dropping the PIDs with an empty ring changes no ring. -/
theorem ring_pruneStalePids (cw : ContextWindow) (pid : UInt32) :
    cw.pruneStalePids.ring pid = cw.ring pid := by
  unfold ContextWindow.ring
  rw [lookup_pruneStalePids]
  cases cw.store.lookup pid with
  | none => rfl
  | some r =>
      -- A ring without entries and no ring at all are read the same.
      cases r with
      | nil => rfl
      | cons e rest => rfl

/-- The average of a ring, by its entries. -/
theorem contextVector_eq (cw : ContextWindow) (pid : UInt32) :
    cw.contextVector pid =
      if (cw.ring pid).isEmpty then none
      else
        let (result, total) := ContextWindow.weightedSum cw.vectorDim (cw.ring pid)
        some (normalized (if total > 1e-9 then result.map (fun x => x / total) else result)) := by
  unfold ContextWindow.contextVector ContextWindow.ring
  cases cw.store.lookup pid with
  | none => rfl
  | some r => rfl

/-- The vector to search for is a function of the event, its vector and the
    ring of its process. -/
theorem searchVector_congr (cw cw' : ContextWindow) (event : NormalizedEvent)
    (current : List Float32) (hdim : cw.vectorDim = cw'.vectorDim)
    (hring : cw.ring event.process.pid = cw'.ring event.process.pid) :
    (SlowPath.searchVector cw event current).2 = (SlowPath.searchVector cw' event current).2 := by
  unfold SlowPath.searchVector
  simp only
  rw [contextVector_eq, contextVector_eq, hring, hdim]

/-- An entry is recorded by the calls that get to the search. -/
theorem entryOf_eq_some_iff {event : NormalizedEvent} {ts : UInt64} {vector : List Float32} :
    sp.entryOf event = some (ts, vector) ↔ ts = event.timestamp ∧ sp.Searches event vector := by
  unfold SlowPath.entryOf
  rw [Option.ite_none_left_eq_some, Option.ite_none_left_eq_some, Bool.or_eq_true, not_or,
    Bool.not_eq_true', Bool.not_eq_true', Bool.not_eq_false, Bool.not_eq_false]
  cases hembed : sp.embedder.embed event with
  | error err =>
      constructor
      · intro h
        exact absurd h.2.2 (by simp only [reduceCtorEq, not_false_eq_true])
      · intro h
        rw [h.2.embed] at hembed
        cases hembed
  | ok current =>
      rw [Option.some.injEq, Prod.mk.injEq]
      constructor
      · intro h
        rcases h with ⟨⟨henabled, havailable⟩, haction, hts, hvector⟩
        exact ⟨hts.symm, henabled, havailable, haction, hembed.trans (congrArg Except.ok hvector)⟩
      · intro h
        rcases h with ⟨hts, hsearches⟩
        have hvector : current = vector := Except.ok.inj (hembed.symm.trans hsearches.embed)
        exact ⟨⟨hsearches.enabled, hsearches.available⟩, hsearches.action, hts.symm, hvector⟩

/-- What analysing an event does to the detector and what it searches for. -/
theorem analyze_cases (event : NormalizedEvent) :
    (sp.entryOf event = none ∧ (sp.analyze event).slowPath = sp ∧
      (sp.analyze event).searched = none) ∨
    ∃ vector, sp.entryOf event = some (event.timestamp, vector) ∧
      (sp.analyze event).slowPath =
        { sp with context := (SlowPath.searchVector sp.context event vector).1 } ∧
      (sp.analyze event).searched = some (SlowPath.searchVector sp.context event vector).2 := by
  rcases sp.analyze_spec event with ⟨hnone, heq⟩ | ⟨current, vector, _, hsearches, hvector, _, heq⟩
  · have hentry : sp.entryOf event = none := by
      refine Option.eq_none_iff_forall_ne_some.mpr (fun e h => ?_)
      exact hnone e.2 ((entryOf_eq_some_iff sp).mp h).2
    rw [heq]
    exact .inl ⟨hentry, rfl, rfl⟩
  · rw [heq, hvector]
    exact .inr ⟨current, (entryOf_eq_some_iff sp).mpr ⟨rfl, hsearches⟩, rfl, rfl⟩

/-- What a run leaves of the detector it started from. -/
structure SameSettings (sp' : SlowPath) : Prop where
  entryOf : sp'.entryOf = sp.entryOf
  windowNs : sp'.context.windowNs = sp.context.windowNs
  vectorDim : sp'.context.vectorDim = sp.context.vectorDim

theorem sameSettings_analyze (event : NormalizedEvent) :
    SameSettings sp (sp.analyze event).slowPath := by
  rcases analyze_cases sp event with ⟨_, hsp, _⟩ | ⟨vector, _, hsp, _⟩
  · rw [hsp]
    exact ⟨rfl, rfl, rfl⟩
  · rw [hsp]
    exact ⟨rfl, rfl, rfl⟩

theorem SlowPath.after_snoc (events : List NormalizedEvent) (event : NormalizedEvent) :
    sp.after (events ++ [event]) = ((sp.after events).analyze event).slowPath := by
  unfold SlowPath.after
  rw [List.foldl_append, List.foldl_cons, List.foldl_nil]

-- By induction on the events from their end, as the detector takes them: an
-- event changes nothing but the store.
theorem sameSettings_after (events : List NormalizedEvent) : SameSettings sp (sp.after events) := by
  induction events using List.reverseRecOn with
  | nil => exact ⟨rfl, rfl, rfl⟩
  | append_singleton events event ih =>
      have hstep := sameSettings_analyze (sp.after events) event
      rw [SlowPath.after_snoc]
      exact ⟨hstep.entryOf.trans ih.entryOf, hstep.windowNs.trans ih.windowNs,
        hstep.vectorDim.trans ih.vectorDim⟩

/-- The events of a process come in order of time. -/
def InOrder (events : List NormalizedEvent) (pid : UInt32) : Prop :=
  (events.filter (fun event => decide (event.process.pid = pid))).Pairwise
    (fun e e' => e.timestamp ≤ e'.timestamp)

instance (events : List NormalizedEvent) (pid : UInt32) : Decidable (InOrder events pid) :=
  inferInstanceAs (Decidable (List.Pairwise _ _))

theorem timestamp_of_entryOf {event : NormalizedEvent} {e : UInt64 × List Float32}
    (h : sp.entryOf event = some e) : e.1 = event.timestamp :=
  ((entryOf_eq_some_iff sp).mp h).1

theorem ordered_history {events : List NormalizedEvent} {pid : UInt32}
    (h : InOrder events pid) : Ordered entryTime (sp.history events pid) := by
  unfold SlowPath.history Ordered
  rw [List.pairwise_filterMap]
  refine h.imp (fun {a b} hle e he e' he' => ?_)
  unfold entryTime
  rw [timestamp_of_entryOf sp he, timestamp_of_entryOf sp he']
  exact UInt64.le_iff_toNat_le.mp hle

theorem history_snoc (events : List NormalizedEvent) (event : NormalizedEvent) (pid : UInt32) :
    sp.history (events ++ [event]) pid = sp.history events pid ++
      if event.process.pid = pid then (sp.entryOf event).toList else [] := by
  unfold SlowPath.history
  rw [List.filter_append, List.filterMap_append]
  by_cases hpid : event.process.pid = pid
  · rw [if_pos hpid, List.filter_cons_of_pos (by simpa using hpid), List.filter_nil]
    cases h : sp.entryOf event <;> simp [h]
  · rw [if_neg hpid, List.filter_cons_of_neg (by simpa using hpid), List.filter_nil]
    rfl

/-- The ring of a process stands for the history of the process. -/
theorem represents_after (hempty : sp.context.store = ∅) (events : List NormalizedEvent)
    (pid : UInt32) (hclock : InOrder events pid) :
    Represents entryTime sp.width (lastN maxPerPid) ((sp.after events).context.ring pid)
      (sp.history events pid) := by
  -- The invariant of a run, by induction on its events from their end. An event
  -- changes the ring of its own process only, by an addition to the window.
  induction events using List.reverseRecOn with
  | nil =>
      have hring : (sp.after []).context.ring pid = [] := by
        unfold ContextWindow.ring SlowPath.after
        rw [List.foldl_nil, hempty]
        rfl
      rw [hring]
      exact Represents.nil (trimming_lastN maxPerPid)
  | append_singleton events event ih =>
      have hordered := ordered_history sp hclock
      have hbefore : InOrder events pid := by
        unfold InOrder at hclock
        rw [List.filter_append] at hclock
        exact (List.pairwise_append.mp hclock).1
      have hrep := ih hbefore
      have hsame := sameSettings_after sp events
      rw [SlowPath.after_snoc]
      rw [history_snoc] at hordered ⊢
      rcases analyze_cases (sp.after events) event with ⟨hnone, hsp, _⟩ | ⟨vector, hsome, hsp, _⟩
      · -- Nothing is recorded.
        rw [hsame.entryOf] at hnone
        rw [hsp, hnone, Option.toList_none, ite_self, List.append_nil]
        exact hrep
      · rw [hsame.entryOf] at hsome
        rw [hsp]
        unfold SlowPath.searchVector
        simp only [ring_pruneStalePids]
        by_cases hpid : event.process.pid = pid
        · -- The event is one of the process: its entry is pushed and the ring pruned.
          rw [if_pos hpid, hsome, Option.toList_some] at hordered ⊢
          have hring : Ordered entryTime
              ((sp.after events).context.ring pid ++ [(event.timestamp, vector)]) :=
            hordered.sublist (hrep.sub.append (List.Sublist.refl _))
          rw [hpid, ring_push_self, prunedRing_eq _ _ _ hring, hsame.windowNs]
          exact hrep.push (trimming_lastN maxPerPid) (event.timestamp, vector) hordered
        · -- The event is one of another process.
          rw [if_neg hpid, List.append_nil,
            ring_push_of_ne _ _ _ _ _ (fun heq => hpid heq.symm)]
          exact hrep

/-- A ring without old entries holds the recent history. -/
theorem ring_eq_of_fresh (hempty : sp.context.store = ∅) (events : List NormalizedEvent)
    (event : NormalizedEvent) (hclock : InOrder (events ++ [event]) event.process.pid)
    (hfresh : ∀ e ∈ (sp.after events).context.ring event.process.pid,
      event.timestamp.toNat - entryTime e ≤ sp.width) :
    (sp.after events).context.ring event.process.pid
      = recentHistory sp events event.process.pid event.timestamp := by
  unfold InOrder at hclock
  rw [List.filter_append, List.pairwise_append] at hclock
  -- No entry of the history is later than the event, so the window speaks of it.
  have hup : UpTo entryTime event.timestamp.toNat (sp.history events event.process.pid) := by
    intro e hmem
    rcases List.mem_filterMap.mp hmem with ⟨earlier, hearlier, hentry⟩
    unfold entryTime
    rw [timestamp_of_entryOf sp hentry]
    exact UInt64.le_iff_toNat_le.mp (hclock.2.2 earlier hearlier event (by simp))
  have hrecent := (represents_after sp hempty events _ hclock.1).recent_eq _ hup
  rw [recent_eq_self hfresh] at hrecent
  exact hrecent

/-- Two runs whose recent histories of a process agree search for the same
    vector at an event of the process, if neither has left an entry in its ring
    that is older than the window at that event. -/
theorem searched_eq_of_fresh (cfg : SlowPathConfig) (embedder : Embedder)
    (qdrantSearch : List Float32 → Nat → Float32 → Except String (List Float32))
    (qdrantEnsured : Bool) (hnew : sp = SlowPath.new cfg embedder qdrantSearch qdrantEnsured)
    (events events' : List NormalizedEvent) (event : NormalizedEvent)
    (hclock : InOrder (events ++ [event]) event.process.pid)
    (hclock' : InOrder (events' ++ [event]) event.process.pid)
    (hagree : recentHistory sp events event.process.pid event.timestamp
      = recentHistory sp events' event.process.pid event.timestamp)
    (hfresh : ∀ e ∈ (sp.after events).context.ring event.process.pid,
      event.timestamp.toNat - entryTime e ≤ sp.width)
    (hfresh' : ∀ e ∈ (sp.after events').context.ring event.process.pid,
      event.timestamp.toNat - entryTime e ≤ sp.width) :
    ((sp.after events).analyze event).searched = ((sp.after events').analyze event).searched := by
  have hempty : sp.context.store = ∅ := by
    rw [hnew]
    rfl
  -- Both rings are the recent history, on which the runs agree. Whether the event
  -- is analysed at all depends on the settings, which a run does not change.
  have hring := ring_eq_of_fresh sp hempty events event hclock hfresh
  have hring' := ring_eq_of_fresh sp hempty events' event hclock' hfresh'
  have hsame := sameSettings_after sp events
  have hsame' := sameSettings_after sp events'
  rcases analyze_cases (sp.after events) event with ⟨hnone, _, hsearch⟩ | ⟨vector, hsome, _, hsearch⟩
  · rcases analyze_cases (sp.after events') event
      with ⟨_, _, hsearch'⟩ | ⟨vector', hsome', _, _⟩
    · rw [hsearch, hsearch']
    · rw [hsame'.entryOf, ← hsame.entryOf, hnone] at hsome'
      exact absurd hsome' (by simp)
  · rcases analyze_cases (sp.after events') event
      with ⟨hnone', _, _⟩ | ⟨vector', hsome', _, hsearch'⟩
    · rw [hsame'.entryOf, ← hsame.entryOf, hsome] at hnone'
      exact absurd hnone' (by simp)
    · rw [hsame'.entryOf, ← hsame.entryOf, hsome, Option.some.injEq, Prod.mk.injEq] at hsome'
      rw [hsearch, hsearch', ← hsome'.2]
      refine congrArg some (searchVector_congr _ _ event vector
        (hsame.vectorDim.trans hsame'.vectorDim.symm) ?_)
      rw [hring, hring', hagree]

/-- A detector with a window of ten seconds, whose embedding tells one program
    from all others. -/
def tenSeconds : SlowPath :=
  SlowPath.new
    { enabled := true, timeWindowSecs := 10, similarityThreshold := 0.85, vectordb := .usearch }
    { dim := 2, provider := fun ev => .ok (if ev.process.binary = "sh" then [0, 1] else [1, 0]) }
    (fun _ _ _ => .ok []) true

/-- A program that a process executes, at a time in seconds. -/
def execAt (pid : UInt32) (secs : UInt64) (binary : String) : NormalizedEvent :=
  { NormalizedEvent.plainExec binary with
    timestamp := secs * 1000000000
    process := { (NormalizedEvent.plainExec binary).process with pid } }

/-- What another process did makes no difference. -/
theorem other_process_ignored :
    ((tenSeconds.after [execAt 1 0 "sh"]).analyze (execAt 1 5 "nc")).searched
      = ((tenSeconds.after [execAt 2 0 "sh", execAt 1 0 "sh"]).analyze (execAt 1 5 "nc")).searched :=
  searched_eq_of_fresh tenSeconds _ _ _ _ rfl [execAt 1 0 "sh"] [execAt 2 0 "sh", execAt 1 0 "sh"]
    (execAt 1 5 "nc") (by decide) (by decide) (by decide) (by decide) (by decide)

/-- After a gap of a hundred seconds the vector is still blended with the one
    from before it. -/
theorem stale_entry_blended :
    recentHistory tenSeconds [execAt 1 0 "sh"] 1 (execAt 1 100 "nc").timestamp = [] ∧
      recentHistory tenSeconds [] 1 (execAt 1 100 "nc").timestamp = [] ∧
      ((tenSeconds.after []).analyze (execAt 1 100 "nc")).searched = some [1, 0] ∧
      ((tenSeconds.after [execAt 1 0 "sh"]).analyze (execAt 1 100 "nc")).searched ≠ some [1, 0] := by
  decide +kernel

end VectorGuard
