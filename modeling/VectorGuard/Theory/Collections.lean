import VectorGuard.Core.Detector
import VectorGuard.Theory.Novelty

/-!
# Collections in a Database

What the vector database does with the requests of the client, and what the client makes
of it.

The database may fail to answer any request, and nobody knows then whether it carried the
request out. When it answers with success it has done what it was asked for: there is a
collection, its description has the size of its vectors, a vector it takes has that size
and is found from then on, and a search finds a point when there is one that is similar
enough. When it answers with an error there is no result in the reply, and `404` to a
request for a collection says that it is not there. Collections change with the requests
of the client only: nobody else creates, changes or drops them.

Of the replies to the requests that change something the client only looks at whether there
is one. So ensuring a collection may succeed although an error came back, and then there
may be none, or one of another size. When no error came back there is a collection of the
right size. In each case nothing was lost from one that had it.

## Main definitions

* `QdrantRequest.effect`: What a request does to its collection.
* `QdrantRequest.Answered`, `QdrantRequest.Refused`: What the answers to it look like.
* `Qdrant`: A database that does this, or does not answer.
* `noted`: The requests with their replies, kept beside the state.
* `memoryQdrant`: A database that always answers.

## Theorems

* `Qdrant.collections_of_read`: A request that only reads changes nothing.
* `Qdrant.ensure_spec`: What ensuring a collection does.
-/

namespace VectorGuard

/-! ### The database -/

/-- There was a reply, and it is no error. -/
def Reply.accepted : Reply → Bool
  | .transportError _ => false
  | .response status _ => decide (status < 400)

namespace QdrantRequest

/-- What a request does to its collection. -/
def effect : QdrantRequest → Option Collection → Option Collection
  | .create size, none => some (.empty size)
  | .delete, _ => none
  | .upsert p, some c =>
    if h : p.vector.length = c.size then some (c.put p.id p.vector h) else some c
  | _, c => c

theorem effect_upsert {p : Point} {c : Collection} (h : p.vector.length = c.size) :
    (upsert p).effect (some c) = some (c.put p.id p.vector h) := dif_pos h

/-- The answer to a request that was carried out. A body may be cut off on its way. -/
def Answered (parseF64 : String → Float) (similarity : List Float32 → List Float32 → Float32)
    (body : Except String Value) : QdrantRequest → Option Collection → Prop
  | .get, c => ∃ there, c = some there ∧
      ∀ info, body = .ok info → (existingSize info).map UInt64.toNat = some there.size
  | .upsert p, c => ∃ there, c = some there ∧ p.vector.length = there.size
  | .search vector limit threshold, c => ∃ there, c = some there ∧ vector.length = there.size ∧
      (0 < limit → ∀ data, body = .ok data → ∃ points, data.field "result" = .array points ∧
        (∀ p ∈ points, ((p.field "score").asF64 parseF64).isSome) ∧
        (points = [] ↔ ¬ there.Familiar similarity vector threshold))
  | _, _ => True

/-- The answer to a request that was not. -/
def Refused (status : UInt16) (body : Except String Value) (req : QdrantRequest)
    (c : Option Collection) : Prop :=
  (∀ data, body = .ok data → data.field "result" = .null) ∧
    (req = .get → status = 404 → c = none)

/-- A reply is an error, and not only the answer that a collection is not there. -/
def refusedBy (req : QdrantRequest) : Reply → Bool
  | .transportError _ => false
  | .response status _ =>
    match req with
    | .get => decide (400 ≤ status ∧ status ≠ 404)
    | _ => decide (400 ≤ status)

end QdrantRequest

/-- A database that carries requests out or refuses them, and says which, or does not
    answer. -/
structure Qdrant (parseF64 : String → Float)
    (similarity : List Float32 → List Float32 → Float32) (S : Type) where
  send : S → String → QdrantRequest → Reply × S
  collections : S → String → Option Collection
  carried : ∀ s url req,
    collections (send s url req).2
        = Function.update (collections s) url (req.effect (collections s url)) ∨
      (send s url req).1.accepted = false ∧ collections (send s url req).2 = collections s
  answers : ∀ s url req status body, (send s url req).1 = .response status body →
    if status < 400 then req.Answered parseF64 similarity body (collections s url)
    else req.Refused status body (collections s url)

/-- The requests of a run with their replies. -/
abbrev Exchanges := List (QdrantRequest × Reply)

/-- None of the replies is an error. -/
def Exchanges.refused (log : Exchanges) : Bool := log.any (fun entry => entry.1.refusedBy entry.2)

/-- The same, with the requests and the replies kept beside the state. -/
def noted {S : Type} (send : S → String → QdrantRequest → Reply × S) (s : S × Exchanges)
    (url : String) (req : QdrantRequest) : Reply × S × Exchanges :=
  ((send s.1 url req).1, (send s.1 url req).2, s.2 ++ [(req, (send s.1 url req).1)])

section

variable {S : Type} (send : S → String → QdrantRequest → Reply × S) {log : Exchanges}
  {req : QdrantRequest} {reply : Reply}

theorem not_refused_snoc :
    Exchanges.refused (log ++ [(req, reply)]) = false ↔
      log.refused = false ∧ req.refusedBy reply = false := by
  unfold Exchanges.refused
  rw [List.any_append, Bool.or_eq_false_iff, List.any_cons, List.any_nil, Bool.or_false]

/-- A reply that is no refusal is one of success, other than that a collection is not there. -/
theorem accepted_of_not_refused {status : UInt16} {body : Except String Value}
    (h : req.refusedBy (.response status body) = false) (hthere : req = .get → status ≠ 404) :
    status < 400 := by
  cases req with
  | get =>
      have hnot := of_decide_eq_false h
      rw [not_and_not_right] at hnot
      exact UInt16.not_le.mp (fun hle => hthere rfl (hnot hle))
  | create | delete | upsert | search => exact UInt16.not_le.mp (of_decide_eq_false h)

theorem create_noted (s : S) (log : Exchanges) (url : String) (size : Nat) :
    qdrantCreate (noted send) (s, log) url size =
      ((qdrantCreate send s url size).1, (qdrantCreate send s url size).2,
        log ++ [(.create size, (send s url (.create size)).1)]) := by
  unfold qdrantCreate noted
  cases hsend : send s url (.create size) with
  | mk reply s' => cases reply <;> rfl

theorem recreate_noted (s : S) (log : Exchanges) (url : String) (size : Nat) :
    (qdrantRecreate (noted send) (s, log) url size).1 = (qdrantRecreate send s url size).1 ∧
      (qdrantRecreate (noted send) (s, log) url size).2.1 = (qdrantRecreate send s url size).2 := by
  unfold qdrantRecreate noted
  cases hsend : send s url .delete with
  | mk reply s' =>
      cases reply with
      | transportError err => exact ⟨rfl, rfl⟩
      | response status body =>
          have hcreate := create_noted send s' (log ++ [(.delete, .response status body)]) url size
          exact ⟨congrArg Prod.fst hcreate, congrArg (fun r => r.2.1) hcreate⟩

/-- Keeping the requests changes nothing. -/
theorem ensure_noted (s : S) (log : Exchanges) (url : String) (size : Nat) :
    (qdrantEnsure (noted send) (s, log) url size).1 = (qdrantEnsure send s url size).1 ∧
      (qdrantEnsure (noted send) (s, log) url size).2.1 = (qdrantEnsure send s url size).2 := by
  unfold qdrantEnsure noted
  cases hsend : send s url .get with
  | mk reply s' =>
      cases reply with
      | transportError err => exact ⟨rfl, rfl⟩
      | response status body =>
          dsimp only
          split
          · have hcreate := create_noted send s' (log ++ [(.get, .response status body)]) url size
            exact ⟨congrArg Prod.fst hcreate, congrArg (fun r => r.2.1) hcreate⟩
          · split
            · exact ⟨rfl, rfl⟩
            · split
              · exact ⟨rfl, rfl⟩
              · split
                · exact recreate_noted send s' _ url size
                · exact ⟨rfl, rfl⟩

/-- What ensuring a collection comes to: it fails at the first request, or it finds the
    collection as it should be or without a size, or creates it, or starts it anew. -/
theorem ensure_cases (s : S) (log : Exchanges) (url : String) (size : Nat) :
    let r := qdrantEnsure (noted send) (s, log) url size
    let s' := (send s url .get).2
    (r.1 = false ∧ r.2.1 = s') ∨ ∃ status body, (send s url .get).1 = .response status body ∧
      let log' := log ++ [(.get, .response status body)]
      (status = 404 ∧ r = qdrantCreate (noted send) (s', log') url size ∨
        status ≠ 404 ∧ ∃ info, body = .ok info ∧
          (existingSize info = none ∧ r = (true, s', log') ∨
            ∃ existing, existingSize info = some existing ∧
              (existing.toNat = size ∧ r = (true, s', log') ∨
                existing.toNat ≠ size ∧
                  r = qdrantRecreate (noted send) (s', log') url size))) := by
  intro r s'
  have hr : r = qdrantEnsure (noted send) (s, log) url size := rfl
  unfold qdrantEnsure noted at hr
  cases hget : (send s url .get).1 with
  | transportError err =>
      rw [hget] at hr
      exact .inl ⟨congrArg Prod.fst hr, congrArg (fun r => r.2.1) hr⟩
  | response status body =>
      rw [hget] at hr
      dsimp only at hr
      split at hr
      · next hstatus => exact .inr ⟨status, body, rfl, .inl ⟨hstatus, hr⟩⟩
      · next hstatus =>
          cases body with
          | error err => exact .inl ⟨congrArg Prod.fst hr, congrArg (fun r => r.2.1) hr⟩
          | ok info =>
              refine .inr ⟨status, .ok info, rfl, .inr ⟨hstatus, info, rfl, ?_⟩⟩
              dsimp only at hr
              split at hr
              · next hnone => exact .inl ⟨hnone, hr⟩
              · next existing hexisting =>
                  refine .inr ⟨existing, hexisting, ?_⟩
                  split at hr
                  · next hdiffers => exact .inr ⟨hdiffers, hr⟩
                  · next hsame => exact .inl ⟨not_not.mp hsame, hr⟩

end

namespace Qdrant

variable {parseF64 : String → Float} {similarity : List Float32 → List Float32 → Float32}
  {S : Type} (q : Qdrant parseF64 similarity S) {s : S} {url : String}

theorem collections_of_read (s : S) (url : String) (req : QdrantRequest)
    (hread : ∀ c, req.effect c = c) :
    q.collections (q.send s url req).2 = q.collections s := by
  rcases q.carried s url req with hcarried | ⟨_, hsame⟩
  · rw [hcarried, hread, Function.update_eq_self]
  · exact hsame

theorem collections_of_accepted (s : S) (url : String) (req : QdrantRequest)
    (haccepted : (q.send s url req).1.accepted = true) :
    q.collections (q.send s url req).2
      = Function.update (q.collections s) url (req.effect (q.collections s url)) := by
  rcases q.carried s url req with hcarried | ⟨hlost, _⟩
  · exact hcarried
  · rw [haccepted] at hlost
    cases hlost

/-- A reply with a dimension describes a collection. -/
theorem described {status : UInt16} {info : Value} {existing : UInt64}
    (hreply : (q.send s url .get).1 = .response status (.ok info))
    (hexisting : existingSize info = some existing) :
    ∃ c, q.collections s url = some c ∧ c.size = existing.toNat := by
  have hanswers := q.answers s url .get status (.ok info) hreply
  split at hanswers
  · rcases hanswers with ⟨c, hthere, hsize⟩
    have hdescribed := hsize info rfl
    rw [hexisting, Option.map_some] at hdescribed
    exact ⟨c, hthere, (Option.some.inj hdescribed).symm⟩
  · -- There is no result in an error.
    have hnone := hanswers.1 info rfl
    unfold existingSize at hexisting
    rw [hnone] at hexisting
    cases hexisting

/-! ### Ensuring a collection -/

/-- Creating a collection, which changes nothing if there is one. -/
theorem create_spec (s : S) (log : Exchanges) (url : String) (size : Nat) :
    let r := qdrantCreate (noted q.send) (s, log) url size
    (q.collections r.2.1 = q.collections s ∨
      q.collections s url = none ∧
        q.collections r.2.1 = Function.update (q.collections s) url (some (.empty size))) ∧
    (q.collections s url = none → r.1 = true → r.2.2.refused = false →
      q.collections r.2.1 url = some (.empty size)) := by
  intro r
  have hr : r = _ := create_noted q.send s log url size
  have hworld : (qdrantCreate q.send s url size).2 = (q.send s url (.create size)).2 := by
    unfold qdrantCreate
    cases q.send s url (.create size) with
    | mk reply s' => cases reply <;> rfl
  rw [hr, hworld]
  dsimp only
  refine ⟨?_, fun hnone hok hnot => ?_⟩
  · rcases q.carried s url (.create size) with hcarried | ⟨_, hsame⟩
    · rw [hcarried]
      cases hthere : q.collections s url with
      | none => exact .inr ⟨rfl, rfl⟩
      | some c =>
          have hsame : (QdrantRequest.create size).effect (some c) = q.collections s url := hthere.symm
          rw [hsame, Function.update_eq_self]
          exact .inl rfl
    · exact .inl hsame
  · have hanswered : (q.send s url (.create size)).1.accepted = true := by
      unfold qdrantCreate at hok
      cases hsend : q.send s url (.create size) with
      | mk reply s' =>
          rw [hsend] at hok hnot
          cases reply with
          | transportError err => cases hok
          | response status body =>
              exact decide_eq_true
                (accepted_of_not_refused (not_refused_snoc.mp hnot).2 QdrantRequest.noConfusion)
    rw [q.collections_of_accepted s url _ hanswered, hnone]
    exact Function.update_self _ _ _

/-- A collection of the wrong size is deleted and created, if that succeeds. -/
theorem recreate_spec (s : S) (log : Exchanges) (url : String) {size : Nat}
    (hwrong : ∀ c, q.collections s url = some c → c.size ≠ size) :
    let r := qdrantRecreate (noted q.send) (s, log) url size
    Renewed url size (q.collections s) (q.collections r.2.1) ∧
      (r.1 = true → r.2.2.refused = false → q.collections r.2.1 url = some (.empty size)) := by
  intro r
  have hr : r = qdrantRecreate (noted q.send) (s, log) url size := rfl
  have hcarried := q.carried s url .delete
  have haccepted := q.collections_of_accepted s url .delete
  unfold qdrantRecreate noted at hr
  cases hdelete : q.send s url .delete with
  | mk reply s' =>
      rw [hdelete] at hcarried haccepted hr
      dsimp only at hcarried haccepted hr
      cases reply with
      | transportError err =>
          rw [hr]
          refine ⟨?_, fun hok => absurd hok Bool.false_ne_true⟩
          rcases hcarried with hgone | ⟨_, hkept⟩
          · exact .inr ⟨hwrong, .inl hgone⟩
          · exact .inl hkept
      | response status body =>
          change r = qdrantCreate (noted q.send)
            (s', log ++ [(.delete, .response status body)]) url size at hr
          have hspec := q.create_spec s' (log ++ [(.delete, .response status body)]) url size
          rw [← hr] at hspec
          rcases hspec with ⟨hcreate, hok⟩
          refine ⟨?_, fun h hnot => ?_⟩
          · rcases hcarried with hgone | ⟨_, hkept⟩
            · rw [hgone, Function.update_idem] at hcreate
              exact .inr ⟨hwrong, hcreate.imp_right And.right⟩
            · -- It was refused, and the new one is not created beside it.
              rw [hkept] at hcreate
              exact hcreate.imp_right (fun h => ⟨hwrong, .inr h.2⟩)
          · have hlog : r.2.2 = (log ++ [(.delete, .response status body)]) ++
                [(.create size, (q.send s' url (.create size)).1)] := by
              rw [hr, create_noted]
            have hbefore := hnot
            rw [hlog] at hbefore
            have hnodelete := (not_refused_snoc.mp (not_refused_snoc.mp hbefore).1).2
            have hgone := haccepted (decide_eq_true
              (accepted_of_not_refused hnodelete QdrantRequest.noConfusion))
            refine hok ?_ h hnot
            rw [hgone]
            exact Function.update_self _ _ _

/-- Ensuring a collection leaves it as it is or, if it has another size, starts it anew. If
    it succeeds and nothing was refused, there is a collection of that size. -/
theorem ensure_spec (s : S) (url : String) (size : Nat) :
    let r := qdrantEnsure (noted q.send) (s, []) url size
    Renewed url size (q.collections s) (q.collections r.2.1) ∧
      (r.1 = true → r.2.2.refused = false → ∃ c,
        q.collections r.2.1 url = some c ∧ c.size = size) := by
  intro r
  have hread := q.collections_of_read s url .get (fun c => by cases c <;> rfl)
  rcases ensure_cases q.send s [] url size with
    ⟨hfailed, hworld⟩ | ⟨status, body, hget, ⟨hmissing, hr⟩ | ⟨hfound, info, rfl, hinfo⟩⟩
  · change r.1 = false at hfailed
    change r.2.1 = _ at hworld
    rw [hworld, hread]
    exact ⟨.inl rfl, fun hok => absurd (hfailed.symm.trans hok) Bool.false_ne_true⟩
  · -- The collection is not there, and the status says so.
    change r = _ at hr
    have hanswer := q.answers s url .get status body hget
    rw [hmissing, if_neg (by decide)] at hanswer
    have hthere : q.collections (q.send s url .get).2 url = none := by
      rw [hread]
      exact hanswer.2 rfl rfl
    have hspec := q.create_spec (q.send s url .get).2 ([] ++ [(.get, .response status body)])
      url size
    rw [← hr] at hspec
    rcases hspec with ⟨hcreate, hok⟩
    rw [hread] at hcreate hok hthere
    refine ⟨hcreate.imp_right (fun h => ⟨fun c hc => ?_, .inr h.2⟩), fun h hnot => ?_⟩
    · rw [hthere] at hc
      cases hc
    · exact ⟨_, hok hthere h hnot, rfl⟩
  · rcases hinfo with ⟨hnone, hr⟩ | ⟨existing, hexisting, hinfo⟩
    · -- A description that is no error has a dimension.
      change r = _ at hr
      rw [hr, hread]
      refine ⟨.inl rfl, fun _ hnot => ?_⟩
      have hanswer := q.answers s url .get status (.ok info) hget
      rw [if_pos (accepted_of_not_refused (not_refused_snoc.mp hnot).2 (fun _ => hfound))] at hanswer
      rcases hanswer with ⟨c, _, hsize⟩
      have hdescribed := hsize info rfl
      rw [hnone] at hdescribed
      cases hdescribed
    · rcases q.described hget hexisting with ⟨c, hthere, hsize⟩
      rcases hinfo with ⟨hsame, hr⟩ | ⟨hdiffers, hr⟩
      · change r = _ at hr
        rw [hr, hread]
        exact ⟨.inl rfl, fun _ _ => ⟨c, hthere, hsize.trans hsame⟩⟩
      · change r = _ at hr
        have hwrong : ∀ c', q.collections (q.send s url .get).2 url = some c' → c'.size ≠ size := by
          intro c' hc'
          rw [hread] at hc'
          rw [← Option.some.inj (hthere.symm.trans hc'), hsize]
          exact hdiffers
        have hspec := q.recreate_spec _ ([] ++ [(.get, .response status (.ok info))]) url hwrong
        rw [← hr, hread] at hspec
        exact ⟨hspec.1, fun h hnot => ⟨_, hspec.2 h hnot, rfl⟩⟩

end Qdrant

/-! ### A database in memory -/

/-- The description of a collection. -/
def describe (size : Nat) : Value :=
  .object [("result", .object [("config", .object [("params", .object [("vectors",
    .object [("size", .posInt (UInt64.ofNat size))])])])])]

open Classical in
/-- The replies of a database that holds its collections in memory and has nothing to say
    about sizes it cannot write down. -/
noncomputable def memoryReply (similarity : List Float32 → List Float32 → Float32) :
    QdrantRequest → Option Collection → Reply
  | .get, some c =>
    if c.size < UInt64.size then .response 200 (.ok (describe c.size)) else .transportError "too large"
  | .create _, none | .delete, _ => .response 200 (.ok .null)
  | .create _, some _ => .response 409 (.ok .null)
  | .upsert p, some c =>
    if p.vector.length = c.size then .response 200 (.ok .null) else .response 400 (.ok .null)
  | .search vector _ threshold, some c =>
    if vector.length = c.size then
      .response 200 (.ok (.object [("result", .array
        (if c.Familiar similarity vector threshold then [.object [("score", .posInt 1)]] else []))]))
    else .response 400 (.ok .null)
  | _, none => .response 404 (.ok .null)

section

variable {parseF64 : String → Float} {similarity : List Float32 → List Float32 → Float32}

/-- An error without a body to speak of. -/
theorem answers_error {status : UInt16} {req : QdrantRequest} {c : Option Collection}
    (hle : ¬ status < 400) (hget : req = .get → status = 404 → c = none) :
    if status < 400 then req.Answered parseF64 similarity (.ok .null) c
    else req.Refused status (.ok .null) c := by
  rw [if_neg hle]
  refine ⟨fun data hdata => ?_, hget⟩
  cases hdata
  rfl

theorem answers_memory (req : QdrantRequest) (c : Option Collection) (status : UInt16)
    (body : Except String Value) (hreply : memoryReply similarity req c = .response status body) :
    if status < 400 then req.Answered parseF64 similarity body c else req.Refused status body c := by
  cases req with
  | get =>
      cases c with
      | none =>
          cases hreply
          exact answers_error (by decide) (fun _ _ => rfl)
      | some c =>
          unfold memoryReply at hreply
          dsimp only at hreply
          split at hreply
          · next hsize =>
              cases hreply
              refine ⟨c, rfl, fun info hinfo => ?_⟩
              cases hinfo
              have hdescribe : existingSize (describe c.size) = some (UInt64.ofNat c.size) := rfl
              rw [hdescribe, Option.map_some, UInt64.toNat_ofNat_of_lt' hsize]
          · cases hreply
  | create size =>
      cases c with
      | none =>
          cases hreply
          exact trivial
      | some c =>
          cases hreply
          exact answers_error (by decide) QdrantRequest.noConfusion
  | delete =>
      cases c with
      | none | some =>
          cases hreply
          exact trivial
  | upsert p =>
      cases c with
      | none =>
          cases hreply
          exact answers_error (by decide) QdrantRequest.noConfusion
      | some c =>
          unfold memoryReply at hreply
          dsimp only at hreply
          split at hreply
          · next hsize =>
              cases hreply
              exact ⟨c, rfl, hsize⟩
          · cases hreply
            exact answers_error (by decide) QdrantRequest.noConfusion
  | search vector limit threshold =>
      cases c with
      | none =>
          cases hreply
          exact answers_error (by decide) QdrantRequest.noConfusion
      | some c =>
          unfold memoryReply at hreply
          dsimp only at hreply
          split at hreply
          · next hsize =>
              cases hreply
              refine ⟨c, rfl, hsize, fun _ data hdata => ?_⟩
              cases hdata
              refine ⟨_, rfl, ?_, ?_⟩
              · intro p hp
                split at hp
                · rw [List.mem_singleton.mp hp]
                  rfl
                · cases hp
              · by_cases hfamiliar : c.Familiar similarity vector threshold
                · rw [if_pos hfamiliar]
                  exact ⟨fun h => absurd h (List.cons_ne_nil _ _), fun h => absurd hfamiliar h⟩
                · rw [if_neg hfamiliar]
                  exact ⟨fun _ => hfamiliar, fun _ => rfl⟩
          · cases hreply
            exact answers_error (by decide) QdrantRequest.noConfusion

end

noncomputable def memoryQdrant (parseF64 : String → Float)
    (similarity : List Float32 → List Float32 → Float32) :
    Qdrant parseF64 similarity (String → Option Collection) where
  send s url req := (memoryReply similarity req (s url), Function.update s url (req.effect (s url)))
  collections s := s
  carried _ _ _ := .inl rfl
  answers s url req := answers_memory req (s url)

end VectorGuard
