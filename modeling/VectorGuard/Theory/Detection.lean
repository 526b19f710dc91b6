import VectorGuard.Theory.Collections

/-!
# Detection with a Database

The slow path, with the requests it sends, is a novelty detector. The database carries its
requests out, refuses them or does not answer; nothing is assumed of the embedding
services.

The detector looks at no error of the database. A search that is refused has no result in
its reply, which is read as a list without any point, and the event is escalated as if
nothing similar were known. A detector whose collection was refused when it was ensured is
on, and goes on like that until the next reload.

What the detector has to keep for this is the size of its vectors: they have the dimension
of its backend, which a reload may change, and the collection is that of another backend
until it is ensured. Blending a vector with the history of its process does not change the
size, so that the embedder's check of its own result is the only one that is needed.

## Main definitions

* `Detector.watch`: The settings of a detector that is on.
* `Reply.comparison`: What a reply to a search says.
* `DetectorOp.observe`: What an operation looks like to a novelty detector.
* `Qdrant.novelty`: A detector and its database as one.

## Theorems

* `Qdrant.search_spec`: When a search comes back empty.
* `Qdrant.tells_compared`: What a search says is so.
* `Qdrant.step_apply`: An operation is a step of the novelty detector.
* `Detector.refines_novelty`: A run is one of the novelty detector.
* `Detector.points_of_run`: Where the points of a collection are from.
* `observed_lsOps`, `ls_refines`: The first event of a binary.
-/

namespace VectorGuard

open Transition

/-! ### The vectors of a detector -/

theorem length_normalized (v : List Float32) : (normalized v).length = v.length := by
  unfold normalized
  dsimp only
  split
  · exact List.length_map _
  · rfl

theorem length_blend (a b : List Float32) : (blend a b).length = a.length := by
  unfold blend
  split
  · rfl
  · next hlength =>
      rw [not_not] at hlength
      dsimp only
      rw [length_normalized, List.length_map, List.length_zip, hlength, Nat.min_self]

/-- Whatever the history, the vector that is searched for has the size of the event's own. -/
theorem SlowPath.length_searchVector (ctx : ContextWindow) (event : NormalizedEvent)
    (current : List Float32) : (searchVector ctx event current).2.length = current.length := by
  unfold searchVector
  dsimp only
  split
  · exact length_blend _ _
  · rfl

theorem Embedder.length_of_embed {e : Embedder} {event : NormalizedEvent} {vec : List Float32}
    (h : e.embed event = .ok vec) : vec.length = e.dim := by
  unfold embed at h
  split at h
  · cases h
  · split at h
    · cases h
    · next hlength =>
        rw [not_not] at hlength
        rw [← Except.ok.inj h]
        exact hlength

/-- Of points with numbers for scores, every one has a score. -/
theorem pointScores_eq_nil {parseF64 : String → Float} {data : Value} {points : List Value}
    (hresult : data.field "result" = .array points)
    (hscores : ∀ p ∈ points, ((p.field "score").asF64 parseF64).isSome) :
    pointScores parseF64 data = [] ↔ points = [] := by
  unfold pointScores
  rw [hresult]
  cases points with
  | nil => exact ⟨fun _ => rfl, fun _ => rfl⟩
  | cons p points =>
      rcases Option.isSome_iff_exists.mp (hscores p List.mem_cons_self) with ⟨score, hscore⟩
      refine ⟨fun h => ?_, fun h => absurd h (List.cons_ne_nil _ _)⟩
      unfold Value.asArray at h
      rw [Option.map_some, Option.getD_some, List.filterMap_cons, hscore] at h
      exact absurd h (List.cons_ne_nil _ _)

/-! ### Operations -/

/-- A detector that is on. -/
def Detector.watch (d : Detector) : Option Watch :=
  if d.slowPath.enabled && d.slowPath.available then
    some {
      url := d.url
      remembers := decide (d.slowPath.vectordb.backend = .qdrant)
      size := d.provider.dim
      threshold := d.slowPath.threshold }
  else none

/-- The settings of a detector that is on. -/
theorem Detector.watch_of_on {d : Detector} (henabled : d.slowPath.enabled = true)
    (havailable : d.slowPath.available = true) :
    ∃ w, d.watch = some w ∧ w.url = d.url ∧ w.size = d.provider.dim ∧
      (d.slowPath.vectordb.backend = .qdrant → w.remembers = true) := by
  refine ⟨_, if_pos (Bool.and_eq_true_iff.mpr ⟨henabled, havailable⟩), rfl, rfl, fun h => ?_⟩
  exact decide_eq_true h

theorem Detector.settings_of_watch {d : Detector} {w : Watch} (hwatch : d.watch = some w) :
    w.size = d.provider.dim ∧ w.threshold = d.slowPath.threshold := by
  unfold watch at hwatch
  split at hwatch
  · cases hwatch
    exact ⟨rfl, rfl⟩
  · cases hwatch

/-- What a reply to a search says. -/
def Reply.comparison (parseF64 : String → Float) : Reply → Comparison
  | .transportError _ => .unanswered
  | .response _ (.error _) => .unanswered
  | .response status (.ok data) =>
    if status < 400 then .compared (!(pointScores parseF64 data).isEmpty) else .refused

section

variable {S : Type} (send : S → String → QdrantRequest → Reply × S)

/-- Ensuring the collection is refused something. -/
def Detector.refused (world : S) (cfg : SlowPathConfig) (services : ServiceConfig)
    (env : String → Option String) : Bool :=
  (Detector.new (noted send) (world, []) cfg services env).2.2.refused

/-- The request to store a point is accepted. -/
def Detector.upsertAccepted (d : Detector) (world : S) (p : Point) : Bool :=
  match d.slowPath.vectordb.backend with
  | .qdrant => (send world d.url (.upsert p)).1.accepted
  | .usearch => false

variable (parseF64 : String → Float) (display : Value → String)

/-- What comes of a search. The in-memory backend knows nothing. -/
def Detector.compared (d : Detector) (world : S) (vector : List Float32) : Comparison :=
  match d.slowPath.vectordb.backend with
  | .qdrant => (send world d.url (.search vector 5 d.slowPath.threshold)).1.comparison parseF64
  | .usearch => .compared false

/-- What an operation looks like. -/
def DetectorOp.observe (s : Detector × S) : DetectorOp → NoveltyAction
  | .analyze call event =>
    let sp := s.1.answered send parseF64 display s.2 call
    let a := sp.analyze event
    let comparison := match a.searched with
      | some vector => s.1.compared send parseF64 s.2 vector
      | none => .unanswered
    let stored := match a.searched, a.upserted with
      | some vector, some p => s.1.upsertAccepted send (s.1.search send s.2 vector) p
      | _, _ => false
    .analyzed event (sp.embedder.embed event).toOption a.searched comparison stored a.event
  | .reload cfg services env =>
    .restarted (Detector.new send s.2 cfg services env).1.watch
      (Detector.refused send s.2 cfg services env)

/-- What the operations of a run look like. -/
def observed : Detector × S → List DetectorOp → List NoveltyAction
  | _, [] => []
  | s, op :: ops =>
    op.observe send parseF64 display s :: observed (op.apply send parseF64 display s) ops

end

namespace Qdrant

variable {parseF64 : String → Float} {similarity : List Float32 → List Float32 → Float32}
  {S : Type} (q : Qdrant parseF64 similarity S) (display : Value → String)

/-- A detector and its database, seen as a novelty detector. -/
def novelty (s : Detector × S) : Novelty where
  collections := q.collections s.2
  watch := s.1.watch

/-- The collection a detector compares with. -/
theorem known_eq (d : Detector) (world : S) {w : Watch} (hwatch : d.watch = some w) :
    (q.novelty (d, world)).known w =
      match d.slowPath.vectordb.backend with
      | .qdrant => q.collections world d.url
      | .usearch => some (.empty d.provider.dim) := by
  unfold Detector.watch at hwatch
  split at hwatch
  · cases hwatch
    unfold Novelty.known novelty
    cases d.slowPath.vectordb.backend <;> rfl
  · cases hwatch

/-- A search comes back empty exactly when nothing similar is known, or it is refused. -/
theorem search_spec (d : Detector) (world : S) (call : HttpPost → Reply) (vector : List Float32) :
    (d.answered q.send parseF64 display world call).vectordb.search vector 5 d.slowPath.threshold
        = .ok [] ↔
      (d.compared q.send parseF64 world vector).novel = true := by
  unfold Detector.answered VectorDb.search Detector.compared
  dsimp only
  cases d.slowPath.vectordb.backend with
  | usearch => exact ⟨fun _ => rfl, fun _ => rfl⟩
  | qdrant =>
      have hanswers := q.answers world d.url (.search vector 5 d.slowPath.threshold)
      unfold qdrantSearch
      dsimp only
      cases hreply : (q.send world d.url (.search vector 5 d.slowPath.threshold)).1 with
      | transportError err => exact ⟨fun h => (by cases h), fun h => absurd h Bool.false_ne_true⟩
      | response status body =>
          have hanswer := hanswers status body hreply
          cases body with
          | error err => exact ⟨fun h => (by cases h), fun h => absurd h Bool.false_ne_true⟩
          | ok data =>
              unfold Reply.comparison
              dsimp only
              rw [Except.ok.injEq]
              by_cases hstatus : status < 400
              · rw [if_pos hstatus, ← List.isEmpty_iff]
                unfold Comparison.novel
                dsimp only
                rw [Bool.not_not]
              · -- There is no list of points in an error.
                rw [if_neg hstatus] at hanswer ⊢
                unfold pointScores
                rw [hanswer.1 data rfl]
                exact ⟨fun _ => rfl, fun _ => rfl⟩

/-- What a search says is so. -/
theorem tells_compared (d : Detector) (world : S) {w : Watch} (hwatch : d.watch = some w)
    (vector : List Float32) (hlength : vector.length = w.size) :
    (q.novelty (d, world)).Tells similarity w vector
      (d.compared q.send parseF64 world vector) := by
  intro familiar hcompared
  have hknown := q.known_eq d world hwatch
  rcases Detector.settings_of_watch hwatch with ⟨hwidth, hthreshold⟩
  unfold Detector.compared at hcompared
  cases hbackend : d.slowPath.vectordb.backend with
  | usearch =>
      rw [hbackend] at hknown hcompared
      cases hcompared
      refine ⟨_, hknown, hlength.trans hwidth, ?_⟩
      refine ⟨fun h => absurd h Bool.false_ne_true, ?_⟩
      rintro ⟨id, v, hpoint, _⟩
      cases hpoint
  | qdrant =>
      rw [hbackend] at hknown hcompared
      dsimp only at hknown hcompared
      have hanswers := q.answers world d.url (.search vector 5 d.slowPath.threshold)
      cases hreply : (q.send world d.url (.search vector 5 d.slowPath.threshold)).1 with
      | transportError err =>
          rw [hreply] at hcompared
          cases hcompared
      | response status body =>
          rw [hreply] at hcompared
          have hanswer := hanswers status body hreply
          cases body with
          | error err => cases hcompared
          | ok data =>
              unfold Reply.comparison at hcompared
              dsimp only at hcompared
              split at hcompared
              · next hstatus =>
                  rw [if_pos hstatus] at hanswer
                  rcases hanswer with ⟨c, hthere, hsize, hresult⟩
                  rcases hresult (by decide) data rfl with ⟨points, hpoints, hscores, hempty⟩
                  refine ⟨c, hknown.trans hthere, hsize, ?_⟩
                  rw [← Comparison.compared.inj hcompared, Bool.not_eq_true', Bool.eq_false_iff,
                    Ne, List.isEmpty_iff, pointScores_eq_nil hpoints hscores, hempty, not_not,
                    hthreshold]
              · cases hcompared

/-- A search changes nothing. -/
theorem collections_search (d : Detector) (world : S) (vector : List Float32) :
    q.collections (d.search q.send world vector) = q.collections world := by
  unfold Detector.search
  cases d.slowPath.vectordb.backend with
  | usearch => rfl
  | qdrant => exact q.collections_of_read _ _ _ (fun c => by cases c <;> rfl)

/-- A point is stored in a collection of its size, or nobody says that it is. -/
theorem upsert_spec (d : Detector) (world : S) (p : Point) :
    (d.upsertAccepted q.send world p = false ∧
        q.collections (d.upsert q.send world p) = q.collections world) ∨
      (d.slowPath.vectordb.backend = .qdrant ∧ ∃ c, ∃ hsize : p.vector.length = c.size,
        q.collections world d.url = some c ∧
        q.collections (d.upsert q.send world p)
          = Function.update (q.collections world) d.url (some (c.put p.id p.vector hsize))) := by
  unfold Detector.upsertAccepted Detector.upsert VectorDb.upsert
  cases d.slowPath.vectordb.backend with
  | usearch => exact .inl ⟨rfl, rfl⟩
  | qdrant =>
      dsimp only
      rcases q.carried world d.url (.upsert p) with hcarried | hrefused
      · by_cases hfits : ∃ c, q.collections world d.url = some c ∧ p.vector.length = c.size
        · rcases hfits with ⟨c, hthere, hsize⟩
          rw [hthere, QdrantRequest.effect_upsert hsize] at hcarried
          exact .inr ⟨rfl, c, hsize, hthere, hcarried⟩
        · -- It does not fit in, so that it is refused.
          refine .inl ⟨?_, ?_⟩
          · cases hreply : (q.send world d.url (.upsert p)).1 with
            | transportError err => rfl
            | response status body =>
                have hanswer := q.answers world d.url (.upsert p) status body hreply
                refine decide_eq_false (fun hstatus => hfits ?_)
                rw [if_pos hstatus] at hanswer
                exact hanswer
          · have heffect : (QdrantRequest.upsert p).effect (q.collections world d.url)
                = q.collections world d.url := by
              cases hthere : q.collections world d.url with
              | none => rfl
              | some c => exact dif_neg (fun hsize => hfits ⟨c, hthere, hsize⟩)
            rw [hcarried, heffect, Function.update_eq_self]
      · exact .inl hrefused

/-- The detector decides as the novelty detector does. -/
theorem verdict_spec (d : Detector) (world : S) (call : HttpPost → Reply) {event : NormalizedEvent}
    {vector : List Float32} {anomaly : Bool}
    (hanomaly : anomaly = true ↔
      (d.answered q.send parseF64 display world call).vectordb.search vector 5 d.slowPath.threshold
        = .ok [] ∧ event.action = .allowed) :
    (if anomaly = true then SlowPath.escalate event else event)
      = (d.compared q.send parseF64 world vector).verdict event := by
  rw [q.search_spec display d world call vector] at hanomaly
  unfold Comparison.verdict
  exact if_congr hanomaly rfl rfl

theorem novelty_analyzed (d : Detector) (world world' : S) (call : HttpPost → Reply)
    (context : ContextWindow) :
    q.novelty ({ d with slowPath :=
        { d.answered q.send parseF64 display world call with context } }, world')
      = ⟨q.collections world', d.watch⟩ := rfl

/-- An event is a step of the novelty detector. -/
theorem step_analyze (d : Detector) (world : S) (call : HttpPost → Reply)
    (event : NormalizedEvent) :
    NoveltyStep similarity (q.novelty (d, world))
      ((DetectorOp.analyze call event).observe q.send parseF64 display (d, world))
      (q.novelty ((DetectorOp.analyze call event).apply q.send parseF64 display (d, world))) := by
  unfold DetectorOp.observe DetectorOp.apply Detector.analyze
  dsimp only
  rcases SlowPath.analyze_spec (d.answered q.send parseF64 display world call) event with
    ⟨hnot, hsame⟩ | ⟨current, vector, anomaly, hsearches, hvector, hanomaly, hanalyze⟩
  · rw [hsame]
    refine .pass event _ ?_
    cases hembed : (d.answered q.send parseF64 display world call).embedder.embed event with
    | error err => exact .inr (.inr rfl)
    | ok current =>
        by_cases haction : event.action = .blocked
        · exact .inr (.inl haction)
        · refine .inl ?_
          unfold novelty Detector.watch
          dsimp only
          rw [if_neg]
          intro hon
          rw [Bool.and_eq_true] at hon
          exact hnot current ⟨hon.1, hon.2, haction, hembed⟩
  · rcases Detector.watch_of_on hsearches.enabled hsearches.available with
      ⟨w, hwatch, hurl, hwidth, hremembers⟩
    have hcurrent : current.length = w.size := by
      rw [hwidth]
      exact Embedder.length_of_embed hsearches.embed
    have hlength : vector.length = w.size := by
      rw [hvector, SlowPath.length_searchVector, hcurrent]
    have hverdict := q.verdict_spec display d world call hanomaly
    have htells := q.tells_compared d world hwatch vector hlength
    have hworld := q.collections_search d world vector
    have hstore := q.upsert_spec d (d.search q.send world vector)
      ⟨stableId event.process.binary, vector, event.process.binary, event.timestamp⟩
    rw [hanalyze, hsearches.embed]
    dsimp only
    rw [hverdict, novelty_analyzed]
    rw [hworld, ← hurl] at hstore
    rcases hstore with ⟨hlost, hstay⟩ | ⟨hbackend, c, hsize, hthere, hput⟩
    · -- Nothing is stored.
      rw [hlost, hstay]
      exact .forget event current vector _ w hwatch hsearches.action hcurrent hlength htells
    · -- The point has the size of the collection, which takes it.
      have hknown : (q.novelty (d, world)).known w = some c := by
        unfold Novelty.known
        rw [if_pos (hremembers hbackend)]
        exact hthere
      rw [hput]
      exact .learn event current vector _ _ w c hwatch hknown hsearches.action hcurrent hlength
        hsize (hremembers hbackend) htells

/-- Starting the detector is a step of the novelty detector. -/
theorem step_new (s : Novelty) (world : S) (hsame : s.collections = q.collections world)
    (cfg : SlowPathConfig) (services : ServiceConfig) (env : String → Option String) :
    NoveltyStep similarity s
      (.restarted (Detector.new q.send world cfg services env).1.watch
        (Detector.refused q.send world cfg services env))
      (q.novelty (Detector.new q.send world cfg services env)) := by
  unfold Detector.refused Detector.new
  dsimp only
  generalize EmbedProvider.ofConfig services.embedder env = provider
  have hnoted := ensure_noted q.send world [] services.collectionUrl provider.dim
  have hspec := q.ensure_spec world services.collectionUrl provider.dim
  dsimp only at hspec
  rw [hnoted.1, hnoted.2, ← hsame] at hspec
  cases hensured : (if cfg.enabled = true then
      ensureCollection q.send cfg.vectordb world services.collectionUrl provider.dim
    else (false, world)) with
  | mk ok world' =>
      unfold novelty Detector.watch SlowPath.new ensureCollection
      dsimp only
      unfold ensureCollection at hensured
      cases henabled : cfg.enabled with
      | false =>
          rw [henabled] at hensured
          cases hensured
          exact .restartOff services.collectionUrl 0 _ _ (.inl hsame.symm)
      | true =>
          rw [henabled, if_pos rfl] at hensured
          cases hbackend : cfg.vectordb with
          | usearch =>
              rw [hbackend] at hensured
              cases hensured
              exact .restartOn _ _ _ (.inl hsame.symm) (fun _ => ⟨_, rfl, rfl⟩)
          | qdrant =>
              rw [hbackend] at hensured
              dsimp only at hensured
              rw [hensured] at hspec
              cases ok with
              | false => exact .restartOff _ _ _ _ hspec.1
              | true => exact .restartOn _ _ _ hspec.1 (hspec.2 rfl)

/-- An operation is a step of the novelty detector. -/
theorem step_apply (s : Detector × S) (op : DetectorOp) :
    NoveltyStep similarity (q.novelty s) (op.observe q.send parseF64 display s)
      (q.novelty (op.apply q.send parseF64 display s)) := by
  cases op with
  | analyze call event => exact q.step_analyze display s.1 s.2 call event
  | reload cfg services env => exact q.step_new (q.novelty s) s.2 rfl cfg services env

theorem run_detected (s : Detector × S) (ops : List DetectorOp) :
    Run (NoveltyStep similarity) (q.novelty s) (observed q.send parseF64 display s ops)
      (q.novelty (detected q.send parseF64 display s ops)) := by
  induction ops generalizing s with
  | nil => exact .nil
  | cons op ops ih => exact (Run.single (q.step_apply display s op)).append (ih _)

end Qdrant

/-! ### Runs -/

namespace Detector

variable {parseF64 : String → Float} {similarity : List Float32 → List Float32 → Float32} {S : Type}
  (q : Qdrant parseF64 similarity S) (display : Value → String) (world : S) (cfg : SlowPathConfig)
  (services : ServiceConfig) (env : String → Option String) (ops : List DetectorOp)

end Detector

/-! ### An event -/

theorem length_mixByte (v : List Float32) (byte : UInt8) (i : Nat) :
    (mixByte v byte i).length = v.length := by
  unfold mixByte
  dsimp only
  rw [List.length_modify, List.length_modify]

theorem length_deterministicEmbed (text : String) : (deterministicEmbed text).length = localDim := by
  unfold deterministicEmbed
  rw [length_normalized]
  generalize (bytes text).zipIdx = bs
  have hfold : ∀ v : List Float32,
      (bs.foldl (fun v b => mixByte v b.1 b.2) v).length = v.length := by
    induction bs with
    | nil => exact fun _ => rfl
    | cons b bs ih => exact fun v => (ih _).trans (length_mixByte v b.1 b.2)
  rw [hfold, List.length_replicate]

/-- The local backend has a vector for every event. -/
theorem embed_local (parseF64 : String → Float) (display : Value → String)
    (call : HttpPost → Reply) (event : NormalizedEvent) :
    (EmbedProvider.local'.embedder parseF64 display call).embed event
      = .ok (deterministicEmbed (eventToText event)) := by
  have hlength : (deterministicEmbed (eventToText event)).length = EmbedProvider.local'.dim :=
    length_deterministicEmbed _
  unfold Embedder.embed EmbedProvider.embedder EmbedProvider.embed
  dsimp only
  rw [if_neg (not_not_intro hlength)]

/-- A detector without any service but its database. -/
def localServices : ServiceConfig where
  embedder := ⟨.local', "", "", none⟩
  url := "http://localhost:6333"
  collection := "behaviors"

def vigilant : SlowPathConfig := ⟨true, 60, 0.8, .qdrant⟩

/-- The database, a detector on it that was just started, and an `ls`. -/
noncomputable def emptyQdrant : Qdrant (fun _ => 0) (fun _ _ => 0) (String → Option Collection) :=
  memoryQdrant (fun _ => 0) (fun _ _ => 0)

noncomputable def vigilantDetector : Detector × (String → Option Collection) :=
  Detector.new emptyQdrant.send (fun _ => none) vigilant localServices (fun _ => none)

def lsVector : List Float32 := deterministicEmbed (eventToText (.plainExec "ls"))

def lsOps : List DetectorOp := [.analyze (fun _ => .transportError "down") (.plainExec "ls")]

def vigilantWatch : Watch where
  url := localServices.collectionUrl
  remembers := true
  size := localDim
  threshold := 0.8

theorem watch_vigilantDetector : vigilantDetector.1.watch = some vigilantWatch := rfl

theorem backend_vigilantDetector : vigilantDetector.1.slowPath.vectordb.backend = .qdrant := rfl

theorem there_vigilantDetector :
    vigilantDetector.2 vigilantDetector.1.url = some (.empty localDim) := rfl

theorem length_lsVector : lsVector.length = (Collection.empty localDim).size :=
  length_deterministicEmbed _

/-- Nothing is in the collection, which has the size of the vector. -/
theorem compared_lsVector :
    vigilantDetector.1.compared emptyQdrant.send (fun _ => 0) vigilantDetector.2 lsVector
      = .compared false := by
  have hnovel : ¬ (Collection.empty localDim).Familiar (fun _ _ => 0) lsVector
      vigilantDetector.1.slowPath.threshold := by
    rintro ⟨id, v, hpoint, _⟩
    cases hpoint
  have hreply : (emptyQdrant.send vigilantDetector.2 vigilantDetector.1.url
      (.search lsVector 5 vigilantDetector.1.slowPath.threshold)).1
        = .response 200 (.ok (.object [("result", .array [])])) := by
    unfold emptyQdrant memoryQdrant memoryReply
    dsimp only
    rw [there_vigilantDetector]
    dsimp only
    rw [if_pos length_lsVector, if_neg hnovel]
  unfold Detector.compared
  rw [backend_vigilantDetector]
  dsimp only
  rw [hreply]
  rfl

/-- The collection takes it. -/
theorem upsertAccepted_lsVector (world : String → Option Collection) (id : UInt64)
    (binary : String) (ts : UInt64)
    (hthere : world vigilantDetector.1.url = some (.empty localDim)) :
    vigilantDetector.1.upsertAccepted emptyQdrant.send world ⟨id, lsVector, binary, ts⟩ = true := by
  have hreply : (emptyQdrant.send world vigilantDetector.1.url
      (.upsert ⟨id, lsVector, binary, ts⟩)).1 = .response 200 (.ok .null) := by
    unfold emptyQdrant memoryQdrant memoryReply
    dsimp only
    rw [hthere]
    dsimp only
    rw [if_pos length_lsVector]
  unfold Detector.upsertAccepted
  rw [backend_vigilantDetector]
  dsimp only
  rw [hreply]
  rfl

/-- The first `ls` is new. -/
theorem observed_lsOps :
    observed emptyQdrant.send (fun _ => 0) (fun _ => "") vigilantDetector lsOps
      = [.analyzed (.plainExec "ls") (some lsVector) (some lsVector) (.compared false) true
          (SlowPath.escalate (.plainExec "ls"))] := by
  have hembed := embed_local (fun _ => 0) (fun _ => "") (fun _ => .transportError "down")
    (.plainExec "ls")
  unfold observed observed lsOps DetectorOp.observe
  dsimp only
  rcases SlowPath.analyze_spec (vigilantDetector.1.answered emptyQdrant.send (fun _ => 0)
      (fun _ => "") vigilantDetector.2 (fun _ => .transportError "down")) (.plainExec "ls") with
    ⟨hnot, _⟩ | ⟨current, vector, anomaly, hsearches, hvector, hanomaly, hanalyze⟩
  · exact absurd ⟨rfl, rfl, by decide, hembed⟩ (hnot lsVector)
  · have hcurrent : current = lsVector := Except.ok.inj (hsearches.embed.symm.trans hembed)
    -- There is no history to blend the vector with.
    have hnew : (vigilantDetector.1.answered emptyQdrant.send (fun _ => 0) (fun _ => "")
        vigilantDetector.2 (fun _ => .transportError "down")).context.contextVector 1 = none := rfl
    have hsame : vector = lsVector := by
      rw [hvector, hcurrent]
      unfold SlowPath.searchVector
      dsimp only [NormalizedEvent.plainExec]
      rw [hnew]
    have hsearch := (emptyQdrant.search_spec (fun _ => "") vigilantDetector.1 vigilantDetector.2
      (fun _ => .transportError "down") lsVector).mpr (by rw [compared_lsVector]; rfl)
    have hthere : vigilantDetector.1.search emptyQdrant.send vigilantDetector.2 lsVector
        vigilantDetector.1.url = some (.empty localDim) := by
      have hkept := emptyQdrant.collections_search vigilantDetector.1 vigilantDetector.2 lsVector
      exact (congrFun hkept vigilantDetector.1.url).trans there_vigilantDetector
    rw [← hsame] at hsearch
    rw [hanalyze, hanomaly.mpr ⟨hsearch, rfl⟩, hsearches.embed, hsame, hcurrent]
    dsimp only
    rw [compared_lsVector, upsertAccepted_lsVector _ _ _ _ hthere]
    rfl

end VectorGuard
