import VectorGuard.Core.Qdrant
import VectorGuard.Theory.Escalation

/-!
# Failed Searches

What the detector makes of a reply that is no search result.

The detector takes an error for no answer and an empty list of scores for no
neighbours, and escalates on the second. The client reports an error when there is
no reply or when the reply is not JSON. A reply that says what went wrong, as the
database does for a collection that is not there, is JSON without a list of points,
and it comes out as an empty list of scores. So the one kind of failure that the
database reports itself is the one that raises an alert.

## Main definitions

* `Reply.IsSearchResult`: A list of points.
* `Reply.IsJson`: A reply with a JSON body.
* `asking`: The detector with a database that gives this reply.
* `KeepsVerdict`: The detector leaves action and severity as they are.

## Theorems

* `qdrantSearch_of_not_isSearchResult`: What the client makes of such a reply.
* `keepsVerdict_iff`: When the detector leaves the verdict alone.
-/

namespace VectorGuard

/-- The reply is a list of points, with any status. -/
def Reply.IsSearchResult : Reply → Prop
  | .response _ (.ok data) => ∃ items, data.field "result" = .array items
  | _ => False

/-- The reply is JSON. -/
def Reply.IsJson : Reply → Prop
  | .response _ (.ok _) => True
  | _ => False

/-- The detector with a database that gives this reply to its search. -/
def asking (parseF64 : String → Float) (sp : SlowPath) (reply : Reply) : SlowPath :=
  { sp with
    vectordb :=
      { backend := .qdrant
        qdrantSearch := qdrantSearch parseF64 (fun _ _ _ => reply) } }

/-- The detector leaves the action and the severity of the event as they are. -/
def KeepsVerdict (sp : SlowPath) (ev : NormalizedEvent) : Prop :=
  (sp.analyze ev).event.action = ev.action ∧ (sp.analyze ev).event.severity = ev.severity

/-- The detector is on, and the event is allowed and can be embedded. -/
def Searched (sp : SlowPath) (ev : NormalizedEvent) : Prop :=
  sp.enabled = true ∧ sp.available = true ∧ ev.action = .allowed ∧
    ∃ vec, sp.embedder.embed ev = .ok vec

theorem asArray_eq_none {v : Value} (h : ¬ ∃ items, v = .array items) : v.asArray = none := by
  cases v with
  | array items => exact absurd ⟨items, rfl⟩ h
  | null | bool _ | posInt _ | negInt _ | float _ | string _ | object _ => rfl

/-- Of the replies that are no search result, the client reports those that are
    not JSON and takes the others for an empty one. -/
theorem qdrantSearch_of_not_isSearchResult (parseF64 : String → Float) (reply : Reply)
    (hfailed : ¬ reply.IsSearchResult) (vector : List Float32) (limit : Nat)
    (scoreThreshold : Float32) :
    qdrantSearch parseF64 (fun _ _ _ => reply) vector limit scoreThreshold = .ok [] ↔
      reply.IsJson := by
  unfold qdrantSearch
  cases reply with
  | transportError err =>
      simp only [Reply.IsJson, reduceCtorEq]
  | response status body =>
      cases body with
      | error err =>
          simp only [Reply.IsJson, reduceCtorEq]
      | ok data =>
          have hnone : (data.field "result").asArray = none := asArray_eq_none hfailed
          refine iff_of_true ?_ trivial
          simp only [pointScores, hnone, Option.map_none, Option.getD_none]

/-- What the detector does to an event shows in the action. -/
theorem keepsVerdict_iff_not_anomalous (sp : SlowPath) (ev : NormalizedEvent) :
    KeepsVerdict sp ev ↔ ¬ Anomalous sp ev := by
  unfold KeepsVerdict
  by_cases h : Anomalous sp ev
  · rw [analyze_of_anomalous sp ev h, h.2.2.1]
    refine iff_of_false ?_ (not_not_intro h)
    intro hkept
    exact absurd hkept.1 (by simp only [SlowPath.escalate, reduceCtorEq, not_false_eq_true])
  · rw [analyze_of_not_anomalous sp ev h]
    exact iff_of_true ⟨rfl, rfl⟩ h

/-- A reply that is no search result leaves the verdict alone exactly when it is
    not JSON either, or the detector does not search for the event. -/
theorem keepsVerdict_iff (parseF64 : String → Float) (sp : SlowPath) (ev : NormalizedEvent)
    (reply : Reply) (hfailed : ¬ reply.IsSearchResult) :
    KeepsVerdict (asking parseF64 sp reply) ev ↔ ¬ reply.IsJson ∨ ¬ Searched sp ev := by
  have hsearch := qdrantSearch_of_not_isSearchResult parseF64 reply hfailed
  have hanomalous : Anomalous (asking parseF64 sp reply) ev ↔ reply.IsJson ∧ Searched sp ev := by
    unfold Anomalous Searched
    simp only [asking, VectorDb.search, hsearch]
    constructor
    · intro h
      rcases h with ⟨henabled, havailable, hallowed, vec, hembed, hjson⟩
      exact ⟨hjson, henabled, havailable, hallowed, vec, hembed⟩
    · intro h
      rcases h with ⟨hjson, henabled, havailable, hallowed, vec, hembed⟩
      exact ⟨henabled, havailable, hallowed, vec, hembed, hjson⟩
  rw [keepsVerdict_iff_not_anomalous, hanomalous, not_and_or]

/-- A request that gets no reply changes nothing. -/
theorem transportError_keepsVerdict :
    KeepsVerdict (asking (fun _ => 0) lonelySlowPath (.transportError "connection refused"))
      (.plainExec "ls") :=
  (keepsVerdict_iff (fun _ => 0) lonelySlowPath (.plainExec "ls")
    (.transportError "connection refused") not_false).mpr (Or.inl not_false)

/-- What the database answers for a collection that is not there. -/
def noCollection : Reply :=
  .response 404 (.ok (.object
    [("status", .object [("error", .string "Not found: Collection vectorguard")]),
      ("time", .float "0.0")]))

/-- A collection that is not there raises an alert on an `ls`. -/
theorem noCollection_alerts :
    ¬ noCollection.IsSearchResult ∧
      ((asking (fun _ => 0) lonelySlowPath noCollection).analyze (.plainExec "ls")).event.action
        = .alerted ∧
      ¬ KeepsVerdict (asking (fun _ => 0) lonelySlowPath noCollection) (.plainExec "ls") := by
  have hanomalous : Anomalous (asking (fun _ => 0) lonelySlowPath noCollection)
      (.plainExec "ls") := ⟨rfl, rfl, rfl, [1.0], rfl, rfl⟩
  refine ⟨?_, ?_, ?_⟩
  · intro h
    rcases h with ⟨items, hitems⟩
    have hnull : ∀ status time, (Value.object [("status", status), ("time", time)]).field "result"
        = .null := fun _ _ => rfl
    rw [hnull] at hitems
    cases hitems
  · rw [analyze_of_anomalous _ _ hanomalous]
    rfl
  · rw [keepsVerdict_iff_not_anomalous]
    exact not_not_intro hanomalous

end VectorGuard
