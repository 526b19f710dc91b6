import Mathlib.Data.List.Dedup
import Mathlib.Data.List.TakeWhile
import VectorGuard.Theory.StaleContext

/-!
# Live PIDs

Which processes the context store still holds after a run.

A ring is pruned when an event of its own process is recorded, and that event is
in the ring afterwards. So no ring is ever empty once it exists, and dropping the
empty rings, which is what `prune_stale_pids` does, drops nothing. A process stays
in the store forever after its first recorded event, and the store has exactly the
processes ever recorded. It holds only live ones as long as none of them falls
silent for longer than the window.

## Main definitions

* `LivePids`: Every stored process has a recent entry, and there are no more of
  them than were seen recently.
* `NoneSilent`: Every process recorded so far has been recorded recently.

## Theorems

* `prunedRing_push_ne_nil`: A push leaves its own entry in the ring.
* `lookup_after_isSome_iff`: The store holds the processes ever recorded.
* `livePids_iff`: When the store holds only live processes.
-/

namespace VectorGuard

open SlidingWindow

variable (sp : SlowPath)

/-- The recent times at an event. -/
def WithinWindow (event : NormalizedEvent) (time : Nat) : Prop :=
  event.timestamp.toNat - sp.width ≤ time

instance (event : NormalizedEvent) (time : Nat) : Decidable (WithinWindow sp event time) :=
  inferInstanceAs (Decidable (_ ≤ _))

/-- The processes with an event in the window that ends at the last event. -/
def seenPids (events : List NormalizedEvent) (event : NormalizedEvent) : List UInt32 :=
  (((events ++ [event]).filter (fun e => decide (WithinWindow sp event e.timestamp.toNat))).map
    (fun e => e.process.pid)).dedup

/-- After some events and a last one, every process in the store has an entry
    within the window, so that the store is no larger than the number of processes
    seen within it. -/
structure LivePids (events : List NormalizedEvent) (event : NormalizedEvent) : Prop where
  live : ∀ pid ring, (sp.after (events ++ [event])).context.store.lookup pid = some ring →
    ∃ e ∈ ring, WithinWindow sp event (entryTime e)
  bounded : (sp.after (events ++ [event])).context.store.keys.length
    ≤ (seenPids sp events event).length

/-- Every process with a recorded event has one within the window. -/
def NoneSilent (events : List NormalizedEvent) (event : NormalizedEvent) : Prop :=
  ∀ e ∈ events ++ [event], (sp.entryOf e).isSome →
    ∃ e' ∈ events ++ [event], e'.process.pid = e.process.pid ∧ (sp.entryOf e').isSome ∧
      WithinWindow sp event e'.timestamp.toNat

/-- The entry that is pushed survives the pruning it causes. -/
theorem prunedRing_push_ne_nil (r : Ring) (ts window : UInt64) (v : List Float32) :
    ContextWindow.prunedRing (r ++ [(ts, v)]) (ContextWindow.saturatingSub ts window) ≠ [] := by
  unfold ContextWindow.prunedRing
  intro hnil
  rw [List.drop_eq_nil_iff] at hnil
  have hpos : 0 < maxPerPid := by decide
  have hdropped : (r ++ [(ts, v)]).dropWhile
      (fun e => decide (e.1 < ContextWindow.saturatingSub ts window)) = [] := by
    rw [← List.length_eq_zero_iff]
    omega
  -- The push is as old as the cutoff at most, so it would have to be expired.
  have hexpired := List.dropWhile_eq_nil_iff.mp hdropped (ts, v) (by simp)
  rw [decide_eq_true_eq, lt_saturatingSub_iff, Nat.sub_self] at hexpired
  exact Nat.not_lt_zero _ hexpired

theorem mem_history_iff (events : List NormalizedEvent) (pid : UInt32)
    (e : UInt64 × List Float32) :
    e ∈ sp.history events pid ↔
      ∃ event ∈ events, event.process.pid = pid ∧ sp.entryOf event = some e := by
  unfold SlowPath.history
  simp only [List.mem_filterMap, List.mem_filter, decide_eq_true_eq, and_assoc]

/-- A recorded event leaves a ring for its process that is not empty, and the
    stored rings of the others as they were, but for empty ones. -/
theorem lookup_analyze (event : NormalizedEvent) (vector : List Float32) (pid : UInt32) :
    (SlowPath.searchVector sp.context event vector).1.store.lookup pid =
      if pid = event.process.pid then
        some (ContextWindow.prunedRing (sp.context.ring pid ++ [(event.timestamp, vector)])
          (ContextWindow.saturatingSub event.timestamp sp.context.windowNs))
      else (sp.context.store.lookup pid).filter (fun r => !r.isEmpty) := by
  unfold SlowPath.searchVector
  simp only [lookup_pruneStalePids]
  by_cases hpid : pid = event.process.pid
  · have hne := prunedRing_push_ne_nil (sp.context.ring pid) event.timestamp sp.context.windowNs
      vector
    rw [if_pos hpid]
    rw [hpid] at hne ⊢
    unfold ContextWindow.push
    rw [AList.lookup_insert, Option.filter_some, if_pos]
    · rfl
    · rw [Bool.not_eq_true', List.isEmpty_eq_false_iff]
      exact hne
  · rw [if_neg hpid]
    unfold ContextWindow.push
    rw [AList.lookup_insert_ne hpid]

/-- The store holds the processes with a recorded event and no others, and no
    empty ring. -/
theorem stored_iff_recorded (hempty : sp.context.store = ∅) (events : List NormalizedEvent)
    (pid : UInt32) :
    ((sp.after events).context.store.lookup pid = none ∧ sp.history events pid = []) ∨
      ∃ r, r ≠ [] ∧ (sp.after events).context.store.lookup pid = some r ∧
        sp.history events pid ≠ [] := by
  -- By induction on the events from their end, as for what the rings stand for.
  induction events using List.reverseRecOn with
  | nil =>
      refine .inl ⟨?_, rfl⟩
      unfold SlowPath.after
      rw [List.foldl_nil, hempty]
      rfl
  | append_singleton events event ih =>
      have hsame := sameSettings_after sp events
      rw [SlowPath.after_snoc, history_snoc]
      rcases analyze_cases (sp.after events) event with ⟨hnone, hsp, _⟩ | ⟨vector, hsome, hsp, _⟩
      · -- Nothing is recorded.
        rw [hsame.entryOf] at hnone
        rw [hsp, hnone, Option.toList_none, ite_self, List.append_nil]
        exact ih
      · rw [hsame.entryOf] at hsome
        rw [hsp, hsome, Option.toList_some]
        simp only [lookup_analyze]
        by_cases hpid : pid = event.process.pid
        · -- The process of the event has a ring from here on.
          rw [if_pos hpid, if_pos hpid.symm]
          exact .inr ⟨_, prunedRing_push_ne_nil _ _ _ _, rfl, by simp⟩
        · rw [if_neg hpid, if_neg (fun heq => hpid heq.symm), List.append_nil]
          -- The ring of another process is not empty, so it is kept.
          rcases ih with ⟨hlookup, hhistory⟩ | ⟨r, hne, hlookup, hhistory⟩
          · rw [hlookup]
            exact .inl ⟨rfl, hhistory⟩
          · rw [hlookup, Option.filter_some, if_pos]
            · exact .inr ⟨r, hne, rfl, hhistory⟩
            · rw [Bool.not_eq_true', List.isEmpty_eq_false_iff]
              exact hne

theorem ring_eq_of_lookup {cw : ContextWindow} {pid : UInt32} {r : Ring}
    (h : cw.store.lookup pid = some r) : cw.ring pid = r := by
  unfold ContextWindow.ring
  rw [h, Option.getD_some]

/-- What is recent of a ring is recent of the history, at the last event. -/
theorem exists_recent_iff (hempty : sp.context.store = ∅) (events : List NormalizedEvent)
    (event : NormalizedEvent) (pid : UInt32)
    (hclock : (events ++ [event]).Pairwise (fun e e' => e.timestamp ≤ e'.timestamp)) :
    (∃ e ∈ (sp.after (events ++ [event])).context.ring pid, WithinWindow sp event (entryTime e)) ↔
      ∃ e ∈ sp.history (events ++ [event]) pid, WithinWindow sp event (entryTime e) := by
  have hrep := represents_after sp hempty (events ++ [event]) pid (hclock.filter _)
  have hup : UpTo entryTime event.timestamp.toNat (sp.history (events ++ [event]) pid) := by
    intro e hmem
    rcases (mem_history_iff sp _ _ e).mp hmem with ⟨earlier, hearlier, _, hentry⟩
    unfold entryTime
    rw [timestamp_of_entryOf sp hentry]
    rcases List.mem_append.mp hearlier with hbefore | hlast
    · exact UInt64.le_iff_toNat_le.mp
        ((List.pairwise_append.mp hclock).2.2 earlier hbefore event (by simp))
    · rw [List.mem_singleton.mp hlast]
  constructor
  · intro h
    rcases h with ⟨e, hmem, hrecent⟩
    exact ⟨e, hrep.sub.subset hmem, hrecent⟩
  · intro h
    -- The ring keeps at least one of the recent entries, for it keeps the last ones.
    rcases h with ⟨e, hmem, hrecent⟩
    have hkept := hrep.recent_eq _ hup
    have hrecentNe : recent entryTime sp.width event.timestamp.toNat
        (sp.history (events ++ [event]) pid) ≠ [] := by
      refine List.ne_nil_of_mem (a := e) (List.mem_filter.mpr ⟨hmem, decide_eq_true ?_⟩)
      unfold WithinWindow at hrecent
      omega
    have hne : recent entryTime sp.width event.timestamp.toNat
        ((sp.after (events ++ [event])).context.ring pid) ≠ [] := by
      rw [hkept]
      exact lastN_ne_nil (by decide) hrecentNe
    rcases List.exists_mem_of_ne_nil _ hne with ⟨e', hmem'⟩
    rcases List.mem_filter.mp hmem' with ⟨hring, hdec⟩
    have hle := of_decide_eq_true hdec
    refine ⟨e', hring, ?_⟩
    unfold WithinWindow
    omega

/-- The history has a recent entry if the process was recorded recently. -/
theorem exists_recent_history_iff (events : List NormalizedEvent) (event : NormalizedEvent)
    (pid : UInt32) :
    (∃ e ∈ sp.history events pid, WithinWindow sp event (entryTime e)) ↔
      ∃ e ∈ events, e.process.pid = pid ∧ (sp.entryOf e).isSome ∧
        WithinWindow sp event e.timestamp.toNat := by
  simp only [mem_history_iff, Option.isSome_iff_exists]
  constructor
  · intro h
    rcases h with ⟨entry, ⟨e, hmem, hpid, hentry⟩, hrecent⟩
    unfold entryTime at hrecent
    rw [timestamp_of_entryOf sp hentry] at hrecent
    exact ⟨e, hmem, hpid, ⟨entry, hentry⟩, hrecent⟩
  · intro h
    rcases h with ⟨e, hmem, hpid, ⟨entry, hentry⟩, hrecent⟩
    refine ⟨entry, ⟨e, hmem, hpid, hentry⟩, ?_⟩
    unfold entryTime
    rw [timestamp_of_entryOf sp hentry]
    exact hrecent

theorem history_ne_nil_iff (events : List NormalizedEvent) (pid : UInt32) :
    sp.history events pid ≠ [] ↔
      ∃ e ∈ events, e.process.pid = pid ∧ (sp.entryOf e).isSome := by
  constructor
  · intro h
    rcases List.exists_mem_of_ne_nil _ h with ⟨entry, hentry⟩
    rcases (mem_history_iff sp events pid entry).mp hentry with ⟨e, hmem, hpid, hsome⟩
    exact ⟨e, hmem, hpid, Option.isSome_of_eq_some hsome⟩
  · intro h
    rcases h with ⟨e, hmem, hpid, hrecorded⟩
    rcases Option.isSome_iff_exists.mp hrecorded with ⟨entry, hsome⟩
    exact List.ne_nil_of_mem ((mem_history_iff sp events pid entry).mpr ⟨e, hmem, hpid, hsome⟩)

/-- After a run of a new detector with a clock that does not go back, the store
    holds only live processes exactly when no process that was ever recorded has
    been silent for the length of the window. -/
theorem livePids_iff (cfg : SlowPathConfig) (embedder : Embedder)
    (qdrantSearch : List Float32 → Nat → Float32 → Except String (List Float32))
    (qdrantEnsured : Bool) (hnew : sp = SlowPath.new cfg embedder qdrantSearch qdrantEnsured)
    (events : List NormalizedEvent) (event : NormalizedEvent)
    (hclock : (events ++ [event]).Pairwise (fun e e' => e.timestamp ≤ e'.timestamp)) :
    LivePids sp events event ↔ NoneSilent sp events event := by
  have hempty : sp.context.store = ∅ := by
    rw [hnew]
    rfl
  have hstored := stored_iff_recorded sp hempty (events ++ [event])
  constructor
  · intro hlive e hmem hrecorded
    -- The process of a recorded event is in the store.
    have hne : sp.history (events ++ [event]) e.process.pid ≠ [] :=
      (history_ne_nil_iff sp _ _).mpr ⟨e, hmem, rfl, hrecorded⟩
    rcases hstored e.process.pid with ⟨_, hnil⟩ | ⟨r, _, hlookup, _⟩
    · exact absurd hnil hne
    · have hrecent := hlive.live _ r hlookup
      rw [← ring_eq_of_lookup hlookup, exists_recent_iff sp hempty _ _ _ hclock,
        exists_recent_history_iff] at hrecent
      exact hrecent
  · intro hsilent
    have hrecent : ∀ pid ring, (sp.after (events ++ [event])).context.store.lookup pid = some ring →
        ∃ e ∈ sp.history (events ++ [event]) pid, WithinWindow sp event (entryTime e) := by
      intro pid ring hlookup
      rcases hstored pid with ⟨hnone, _⟩ | ⟨_, _, _, hne⟩
      · rw [hlookup] at hnone
        exact absurd hnone (by simp)
      · rcases (history_ne_nil_iff sp _ _).mp hne with ⟨e, hmem, hpid, hrecorded⟩
        have hlast := hsilent e hmem hrecorded
        rw [hpid] at hlast
        exact (exists_recent_history_iff sp _ _ _).mpr hlast
    refine ⟨fun pid ring hlookup => ?_, ?_⟩
    · have h := (exists_recent_iff sp hempty events event pid hclock).mpr (hrecent pid ring hlookup)
      rw [ring_eq_of_lookup hlookup] at h
      exact h
    · -- The stored processes are distinct, and each was seen within the window.
      refine (List.subperm_of_subset (AList.keys_nodup _) (fun pid hpid => ?_)).length_le
      rcases Option.isSome_iff_exists.mp (AList.lookup_isSome.mpr (AList.mem_keys.mpr hpid))
        with ⟨ring, hlookup⟩
      rcases (exists_recent_history_iff sp _ _ _).mp (hrecent pid ring hlookup)
        with ⟨e, hmem, he, _, hwithin⟩
      unfold seenPids
      rw [List.mem_dedup, List.mem_map]
      exact ⟨e, List.mem_filter.mpr ⟨hmem, decide_eq_true hwithin⟩, he⟩

/-- Two programs of one process within the window. -/
theorem one_process_live : LivePids tenSeconds [execAt 1 0 "sh"] (execAt 1 5 "nc") := by
  refine (livePids_iff tenSeconds _ _ _ _ rfl [execAt 1 0 "sh"] (execAt 1 5 "nc")
    (by decide)).mpr (fun e hmem _ => ?_)
  refine ⟨execAt 1 5 "nc", by simp, ?_, rfl, by decide⟩
  simp only [List.cons_append, List.nil_append, List.mem_cons, List.not_mem_nil, or_false] at hmem
  rcases hmem with rfl | rfl
  · rfl
  · rfl

/-- A process that was last seen a hundred seconds ago is still in the store of a
    ten-second window, which holds two processes where one was seen. -/
theorem silent_process_kept :
    (tenSeconds.after ([execAt 1 0 "sh"] ++ [execAt 2 100 "nc"])).context.store.lookup 1
        = some [(0, [0, 1])] ∧
      ¬ LivePids tenSeconds [execAt 1 0 "sh"] (execAt 2 100 "nc") := by
  have hkept : (tenSeconds.after ([execAt 1 0 "sh"] ++ [execAt 2 100 "nc"])).context.store.lookup 1
      = some [(0, [0, 1])] := by
    decide +kernel
  refine ⟨hkept, fun hlive => ?_⟩
  rcases hlive.live 1 _ hkept with ⟨e, hmem, hwithin⟩
  rw [List.mem_singleton.mp hmem] at hwithin
  exact absurd hwithin (by decide)

end VectorGuard
