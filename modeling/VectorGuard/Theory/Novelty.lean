import Mathlib.Data.List.Dedup
import Mathlib.Logic.Function.Basic
import VectorGuard.Core.SlowPath
import VectorGuard.Lib.Transition

/-!
# Novelty Detection

What the slow path and its database are for, without requests and replies.

There are collections of vectors, all of one size in each, one for every binary that was
seen. A detector that is on watches with one of them: an event that is allowed and has no
similar vector in there is escalated, and the vector becomes the one that is known of the
binary of the event. A detector is restarted with other settings; then its collection is
as it was, or it had the wrong size and is started anew.

Much may fail. A comparison that nobody answers leaves the event alone. One that is refused
does not: it looks as if nothing similar were known. The storing may fail, and then the
vector may be known afterwards or not. And when a restart is refused something, the
detector may be on with no collection for its vectors, so that all its comparisons are
refused until the next restart.

Nothing but an event makes a vector known, so that there are never more points than there
were, and one for every binary.

## Main definitions

* `Collection`: Vectors of one size under identifiers.
* `Collection.Familiar`: There is a similar vector.
* `Comparison`: What comes of comparing a vector with what is known.
* `Novelty`: The collections, and the detector that watches with one of them.
* `NoveltyStep`: What an event and what a restart do.

## Theorems

* `Novelty.ready_of_run`: A detector that is on has a collection for its vectors, if its
  last restart was refused nothing.
* `Novelty.held_of_run`: What is known was known before or was seen.
* `Novelty.card_of_run`: How many points there are.
-/

namespace VectorGuard

open Transition

structure Collection where
  size : Nat
  points : UInt64 → Option (List Float32)
  sized : ∀ id v, points id = some v → v.length = size

namespace Collection

def empty (size : Nat) : Collection where
  size := size
  points := fun _ => none
  sized := fun _ _ h => absurd h (Option.some_ne_none _).symm

def put (c : Collection) (id : UInt64) (vector : List Float32) (hsize : vector.length = c.size) :
    Collection where
  size := c.size
  points := Function.update c.points id (some vector)
  sized := by
    intro id' v h
    by_cases hid : id' = id
    · rw [hid, Function.update_self] at h
      rw [← Option.some.inj h]
      exact hsize
    · rw [Function.update_of_ne hid] at h
      exact c.sized id' v h

theorem points_put_self {c : Collection} {id : UInt64} {vector : List Float32}
    (hsize : vector.length = c.size) : (c.put id vector hsize).points id = some vector :=
  Function.update_self _ _ _

theorem points_put_of_ne {c : Collection} {id id' : UInt64} {vector : List Float32}
    (hsize : vector.length = c.size) (hid : id' ≠ id) :
    (c.put id vector hsize).points id' = c.points id' :=
  Function.update_of_ne hid _ _

/-- A vector is similar enough to one that is known. -/
def Familiar (similarity : List Float32 → List Float32 → Float32) (c : Collection)
    (vector : List Float32) (threshold : Float32) : Prop :=
  ∃ id v, c.points id = some v ∧ threshold ≤ similarity vector v

end Collection

/-- What comes of comparing a vector with what is known. -/
inductive Comparison
  /-- There is no answer that can be read. -/
  | unanswered
  | refused
  /-- There is something similar, or not. -/
  | compared (familiar : Bool)

namespace Comparison

/-- A vector is taken for new when nothing similar is known, and when nobody says that. -/
def novel : Comparison → Bool
  | .unanswered => false
  | .refused => true
  | .compared familiar => !familiar

/-- The verdict on an event whose vector was compared. -/
def verdict (comparison : Comparison) (event : NormalizedEvent) : NormalizedEvent :=
  if comparison.novel = true ∧ event.action = .allowed then SlowPath.escalate event else event

end Comparison

/-- The settings of a detector that is on. One that does not remember stores nothing. -/
structure Watch where
  url : String
  remembers : Bool
  size : Nat
  threshold : Float32

structure Novelty where
  collections : String → Option Collection
  watch : Option Watch

/-- What a detector compares with. -/
def Novelty.known (s : Novelty) (w : Watch) : Option Collection :=
  if w.remembers then s.collections w.url else some (.empty w.size)

/-- A comparison says what there is in a collection of the size of the vector. -/
def Novelty.Tells (similarity : List Float32 → List Float32 → Float32) (s : Novelty) (w : Watch)
    (vector : List Float32) (comparison : Comparison) : Prop :=
  ∀ familiar, comparison = .compared familiar → ∃ c, s.known w = some c ∧
    vector.length = c.size ∧ (familiar = true ↔ c.Familiar similarity vector w.threshold)

/-- The collections after a restart: as they were, or one of the wrong size is gone or
    started anew. -/
def Renewed (url : String) (size : Nat) (before after : String → Option Collection) : Prop :=
  after = before ∨
    (∀ c, before url = some c → c.size ≠ size) ∧
      (after = Function.update before url none ∨
        after = Function.update before url (some (.empty size)))

inductive NoveltyAction
  /-- The detector is restarted and may be on. It may be that it was refused something. -/
  | restarted (watch : Option Watch) (refused : Bool)
  /-- An event comes with the vector of its own, if there is one, and is compared with
      another if it is looked at. The storing may be answered. -/
  | analyzed (event : NormalizedEvent) (embedded searched : Option (List Float32))
      (comparison : Comparison) (stored : Bool) (verdict : NormalizedEvent)

section

variable (similarity : List Float32 → List Float32 → Float32)

inductive NoveltyStep (s : Novelty) : NoveltyAction → Novelty → Prop
  /-- An event that is not looked at is left alone. -/
  | pass (event : NormalizedEvent) (embedded : Option (List Float32))
      (hwhy : s.watch = none ∨ event.action = .blocked ∨ embedded = none) :
      NoveltyStep s (.analyzed event embedded none .unanswered false event) s
  | learn (event : NormalizedEvent) (current vector : List Float32) (comparison : Comparison)
      (stored : Bool) (w : Watch) (c : Collection) (hwatch : s.watch = some w)
      (hknown : s.known w = some c) (haction : event.action ≠ .blocked)
      (hcurrent : current.length = w.size) (hlength : vector.length = w.size)
      (hsize : vector.length = c.size) (hremembers : w.remembers = true)
      (htells : s.Tells similarity w vector comparison) :
      NoveltyStep s
        (.analyzed event (some current) (some vector) comparison stored (comparison.verdict event))
        { s with
          collections := Function.update s.collections w.url
            (some (c.put (stableId event.process.binary) vector hsize)) }
  /-- The vector is not stored. -/
  | forget (event : NormalizedEvent) (current vector : List Float32) (comparison : Comparison)
      (w : Watch) (hwatch : s.watch = some w) (haction : event.action ≠ .blocked)
      (hcurrent : current.length = w.size) (hlength : vector.length = w.size)
      (htells : s.Tells similarity w vector comparison) :
      NoveltyStep s
        (.analyzed event (some current) (some vector) comparison false (comparison.verdict event)) s
  | restartOff (url : String) (size : Nat) (refused : Bool)
      (collections : String → Option Collection)
      (hrenewed : Renewed url size s.collections collections) :
      NoveltyStep s (.restarted none refused) ⟨collections, none⟩
  /-- A detector that was refused nothing has a collection for its vectors. -/
  | restartOn (w : Watch) (refused : Bool) (collections : String → Option Collection)
      (hrenewed : Renewed w.url w.size s.collections collections)
      (hready : refused = false →
        ∃ c, Novelty.known ⟨collections, some w⟩ w = some c ∧ c.size = w.size) :
      NoveltyStep s (.restarted (some w) refused) ⟨collections, some w⟩

end

namespace Novelty

variable {similarity : List Float32 → List Float32 → Float32} {s t : Novelty} {a : NoveltyAction}
  {acts : List NoveltyAction}

/-! ### Sizes -/

/-- A detector that is on has a collection for its vectors. -/
def Ready (s : Novelty) : Prop := ∀ w, s.watch = some w → ∃ c, s.known w = some c ∧ c.size = w.size

/-- Whether the last restart was refused something. -/
def refusedAfter (refused : Bool) : NoveltyAction → Bool
  | .restarted _ now => now
  | .analyzed .. => refused

theorem ready_step {refused : Bool} (h : refused = false → s.Ready)
    (hst : NoveltyStep similarity s a t) (hnot : refusedAfter refused a = false) : t.Ready := by
  cases hst with
  | pass | forget => exact h hnot
  | learn event current vector comparison stored w c hwatch hknown haction hcurrent hlength hsize
      hremembers htells =>
      intro w' hwatch'
      cases Option.some.inj (hwatch.symm.trans hwatch')
      refine ⟨c.put (stableId event.process.binary) vector hsize, ?_, hsize.symm.trans hlength⟩
      unfold known
      rw [if_pos hremembers]
      exact Function.update_self _ _ _
  | restartOff => exact fun w hwatch => absurd hwatch (Option.some_ne_none w).symm
  | restartOn w refused collections hrenewed hready =>
      intro w' hwatch
      cases hwatch
      exact hready hnot

/-- Whatever failed before, after a restart that was refused nothing a detector that is on
    has a collection for its vectors. -/
theorem ready_of_run (h : s.Ready) (hrun : Run (NoveltyStep similarity) s acts t)
    (hnot : acts.foldl refusedAfter false = false) : t.Ready := by
  refine hrun.invariant
    (I := fun acts t => acts.foldl refusedAfter false = false → t.Ready) (fun _ => h) ?_ hnot
  intro acts t a u _ ih hst hnot
  rw [List.foldl_append] at hnot
  exact ready_step ih hst hnot

/-! ### Points -/

/-- A vector is stored somewhere under an identifier. -/
def Held (collections : String → Option Collection) (url : String) (id : UInt64)
    (vector : List Float32) : Prop :=
  ∃ c, collections url = some c ∧ c.points id = some vector

/-- An event is compared with a vector. -/
def Seen (acts : List NoveltyAction) (id : UInt64) (vector : List Float32) : Prop :=
  ∃ event embedded comparison stored after,
    .analyzed event embedded (some vector) comparison stored after ∈ acts ∧
      stableId event.process.binary = id

theorem Seen.mono {acts' : List NoveltyAction} {id : UInt64} {vector : List Float32}
    (h : Seen acts id vector) (hsub : acts ⊆ acts') : Seen acts' id vector := by
  rcases h with ⟨event, embedded, comparison, stored, after, hmem, hid⟩
  exact ⟨event, embedded, comparison, stored, after, hsub hmem, hid⟩

/-- A restart makes nothing known. -/
theorem held_renewed {before after : String → Option Collection} {url url' : String} {size : Nat}
    {id : UInt64} {vector : List Float32} (hrenewed : Renewed url' size before after)
    (h : Held after url id vector) : Held before url id vector := by
  rcases h with ⟨c, hc, hpoint⟩
  rcases hrenewed with rfl | ⟨_, rfl | rfl⟩
  · exact ⟨c, hc, hpoint⟩
  all_goals
    by_cases hurl : url = url'
    · -- There is nothing in a collection that is gone or new.
      rw [hurl, Function.update_self] at hc
      cases hc
      all_goals cases hpoint
    · rw [Function.update_of_ne hurl] at hc
      exact ⟨c, hc, hpoint⟩

theorem held_step {url : String} {id : UInt64} {vector : List Float32}
    (hst : NoveltyStep similarity s a t) (h : Held t.collections url id vector) :
    Held s.collections url id vector ∨ Seen [a] id vector := by
  cases hst with
  | pass | forget => exact .inl h
  | learn event current seen comparison stored w c hwatch hknown haction hcurrent hlength hsize
      hremembers htells =>
      rcases h with ⟨c', hc', hpoint⟩
      dsimp only at hc'
      by_cases hurl : url = w.url
      · rw [hurl, Function.update_self] at hc'
        cases hc'
        unfold known at hknown
        rw [if_pos hremembers] at hknown
        by_cases hid : id = stableId event.process.binary
        · have hseen : seen = vector := by
            rw [hid, Collection.points_put_self] at hpoint
            exact Option.some.inj hpoint
          rw [← hseen]
          exact .inr
            ⟨event, some current, comparison, stored, _, List.mem_singleton.mpr rfl, hid.symm⟩
        · rw [Collection.points_put_of_ne hsize hid] at hpoint
          exact .inl ⟨c, hurl ▸ hknown, hpoint⟩
      · rw [Function.update_of_ne hurl] at hc'
        exact .inl ⟨c', hc', hpoint⟩
  | restartOff url' size refused collections hrenewed => exact .inl (held_renewed hrenewed h)
  | restartOn w refused collections hrenewed => exact .inl (held_renewed hrenewed h)

/-- What is known was known before or was seen. -/
theorem held_of_run {url : String} {id : UInt64} {vector : List Float32}
    (hrun : Run (NoveltyStep similarity) s acts t) (h : Held t.collections url id vector) :
    Held s.collections url id vector ∨ Seen acts id vector := by
  have hall : ∀ vector, Held t.collections url id vector →
      Held s.collections url id vector ∨ Seen acts id vector :=
    hrun.invariant (I := fun acts t => ∀ vector, Held t.collections url id vector →
        Held s.collections url id vector ∨ Seen acts id vector)
      (fun _ h => .inl h) (fun acts u a v _ ih hst vector h => by
        rcases held_step hst h with hbefore | hnow
        · exact (ih vector hbefore).imp_right
            (fun hseen => hseen.mono (List.subset_append_left _ _))
        · exact .inr (hnow.mono (List.subset_append_right _ _)))
  exact hall vector h

/-- The binaries whose events are compared. -/
def binariesOf (acts : List NoveltyAction) : List String :=
  acts.filterMap (fun
    | .analyzed event _ (some _) _ _ _ => some event.process.binary
    | _ => none)

theorem mem_binariesOf {id : UInt64} {vector : List Float32} (h : Seen acts id vector) :
    ∃ binary ∈ binariesOf acts, stableId binary = id := by
  rcases h with ⟨event, embedded, comparison, stored, after, hmem, hid⟩
  exact ⟨event.process.binary, List.mem_filterMap.mpr ⟨_, hmem, rfl⟩, hid⟩

/-- No more identifiers get a point than binaries are seen. -/
theorem card_of_run {url : String} (hrun : Run (NoveltyStep similarity) s acts t)
    {ids : List UInt64} (hnodup : ids.Nodup)
    (hnew : ∀ id ∈ ids, (∃ v, Held t.collections url id v) ∧ ∀ v, ¬ Held s.collections url id v) :
    ids.length ≤ (binariesOf acts).dedup.length := by
  have hsub : ids ⊆ (binariesOf acts).dedup.map stableId := by
    intro id hid
    rcases hnew id hid with ⟨⟨v, hheld⟩, hnone⟩
    rcases held_of_run hrun hheld with hbefore | hseen
    · exact absurd hbefore (hnone v)
    · rcases mem_binariesOf hseen with ⟨binary, hmem, hid⟩
      exact List.mem_map.mpr ⟨binary, List.mem_dedup.mpr hmem, hid⟩
  have hle := (List.subperm_of_subset hnodup hsub).length_le
  rw [List.length_map] at hle
  exact hle

end Novelty

end VectorGuard
