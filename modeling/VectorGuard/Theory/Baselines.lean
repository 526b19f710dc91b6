import Mathlib.Logic.Function.Basic
import VectorGuard.Lib.IteratedHash
import VectorGuard.Theory.Escalation

/-!
# Baselines

Which binaries share a point of the vector database.

A baseline is stored under a hash of the binary's name, so that every upsert overwrites
the last baseline of that binary. Two names with one hash would overwrite each other's.
There are more names than hashes, and nothing looks for collisions: the payload of a
point names its binary, but no upsert reads it.

What keeps similar names apart is the arithmetic of the hash. A round mixes a byte in by
exclusive or and multiplies by an odd constant. The constant has an inverse modulo
`2 ^ 64`, so that both can be undone, and names with a different byte in one position
never meet again behind it.

The server is a parameter. All that is asked of it is what a request can change: the
point with the identifier in the request and no other. It may refuse.

## Main definitions

* `PointServer`: The server's part of an upsert.
* `PointServer.after`: The collection after some calls of the detector.
* `PointServer.HoldsOwn`: A binary's point is not another binary's.

## Theorems

* `reversible_round`: Each round of the hash can be undone.
* `upserted_cases`: What a call stores is the baseline of its event's binary.
* `point_afterCall_cases`: What one call does to a point.
* `baselines_apart`: Names that differ in one byte have points of their own.
* `holdsOwn_after`: Among such names a binary's point stays its own.
-/

namespace VectorGuard

open IteratedHash

/-- The server's part of an upsert: collections with a point for each identifier, in
    which a request changes at most the point it is for. -/
structure PointServer (C : Type) where
  point : C → UInt64 → Option Point
  put : C → Point → C
  put_other : ∀ c p id, id ≠ p.id → point (put c p) id = point c id
  /-- A request is carried out or refused. -/
  put_self : ∀ c p, point (put c p) p.id = some p ∨ point (put c p) p.id = point c p.id

namespace PointServer

variable {C : Type} (server : PointServer C)

/-- The collection after one call of a detector. -/
def afterCall (points : C) (call : SlowPath × NormalizedEvent) : C :=
  match (call.1.analyze call.2).upserted with
  | none => points
  | some p => call.1.vectordb.upsert server.put points p

/-- The collection after some calls, each with the detector as it was then. -/
def after (points : C) (calls : List (SlowPath × NormalizedEvent)) : C :=
  calls.foldl server.afterCall points

/-- What is stored for a binary is a baseline of that binary. -/
def HoldsOwn (points : C) (binary : String) : Prop :=
  ∀ p, server.point points (stableId binary) = some p → p.binary = binary

end PointServer

/-! ## The hash -/

/-- The multiplier of the hash is odd, so a product with it can be divided again. -/
theorem mul_prime_injective : Function.Injective (fun h : UInt64 => h * 0x100000001b3) := by
  have hinv : (0x100000001b3 : UInt64) * 0xce965057aff6957b = 1 := by decide
  have hleft : Function.LeftInverse (fun h : UInt64 => h * 0xce965057aff6957b)
      (fun h : UInt64 => h * 0x100000001b3) := by
    intro h
    beta_reduce
    rw [UInt64.mul_assoc, hinv, UInt64.mul_one]
  exact hleft.injective

/-- Mixing a byte in can be undone, given the byte or given the state before. -/
theorem reversible_mix : Reversible (fun (h : UInt64) (b : UInt8) => h ^^^ b.toUInt64) where
  state b := fun _ _ heq => (UInt64.xor_left_inj b.toUInt64).mp heq
  input h := fun _ _ heq => UInt8.toUInt64_inj.mp ((UInt64.xor_right_inj h).mp heq)

theorem reversible_round :
    Reversible (fun (h : UInt64) (b : UInt8) => (h ^^^ b.toUInt64) * 0x100000001b3) :=
  reversible_mix.comp mul_prime_injective

theorem stableId_ne {s t : String} (h : DiffersOnce (bytes s) (bytes t)) :
    stableId s ≠ stableId t :=
  reversible_round.foldl_ne h 0xcbf29ce484222325

/-! ## One call -/

/-- A call that searches stores what it searched for, under the hash of the binary. -/
theorem upserted_cases (sp : SlowPath) (event : NormalizedEvent) :
    ((sp.analyze event).searched = none ∧ (sp.analyze event).upserted = none) ∨
    ∃ p, (sp.analyze event).searched = some p.vector ∧ (sp.analyze event).upserted = some p ∧
      p.id = stableId event.process.binary ∧ p.binary = event.process.binary ∧
      p.ts = event.timestamp := by
  rcases sp.analyze_spec event with ⟨_, heq⟩ | ⟨_, vector, _, _, _, _, heq⟩
  · rw [heq]
    exact .inl ⟨rfl, rfl⟩
  · rw [heq]
    exact .inr ⟨_, rfl, rfl, rfl, rfl, rfl⟩

section Calls

variable {C : Type} (server : PointServer C) (points : C) (call : SlowPath × NormalizedEvent)

/-- What one call does to a point. -/
theorem point_afterCall_cases (id : UInt64) :
    server.point (server.afterCall points call) id = server.point points id ∨
    id = stableId call.2.process.binary ∧ ∃ p,
      server.point (server.afterCall points call) id = some p ∧
      p.binary = call.2.process.binary := by
  unfold PointServer.afterCall
  rcases upserted_cases call.1 call.2 with ⟨_, hnone⟩ | ⟨p, _, hsome, hid, hbinary, _⟩
  · rw [hnone]
    exact .inl rfl
  · rw [hsome]
    unfold VectorDb.upsert
    dsimp only
    cases call.1.vectordb.backend with
    | usearch => exact .inl rfl
    | qdrant =>
        dsimp only
        -- The one point that the request is for, and the others.
        by_cases hself : id = p.id
        · rw [hself]
          rcases server.put_self points p with hput | hput
          · exact .inr ⟨hid, p, hput, hbinary⟩
          · exact .inl hput
        · exact .inl (server.put_other points p id hself)

/-- A call leaves the points of other hashes alone. -/
theorem point_afterCall_of_ne {id : UInt64} (hid : id ≠ stableId call.2.process.binary) :
    server.point (server.afterCall points call) id = server.point points id := by
  rcases point_afterCall_cases server points call id with hsame | ⟨heq, _⟩
  · exact hsame
  · exact absurd heq hid

/-- The calls for a binary keep its point its own, and so do those for other hashes. -/
theorem holdsOwn_afterCall {s : String} (hown : server.HoldsOwn points s)
    (hcall : call.2.process.binary = s ∨ stableId s ≠ stableId call.2.process.binary) :
    server.HoldsOwn (server.afterCall points call) s := by
  intro p hp
  rcases hcall with heq | hne
  · rcases point_afterCall_cases server points call (stableId s) with hsame | ⟨_, q, hq, hbinary⟩
    · rw [hsame] at hp
      exact hown p hp
    · rw [hq, Option.some.injEq] at hp
      rw [← hp, hbinary, heq]
  · rw [point_afterCall_of_ne server points call hne] at hp
    exact hown p hp

end Calls

/-! ## Runs -/

section Runs

variable {C : Type} (server : PointServer C) {calls : List (SlowPath × NormalizedEvent)}

theorem point_after_of_ne (points : C) {id : UInt64}
    (hcalls : ∀ call ∈ calls, id ≠ stableId call.2.process.binary) :
    server.point (server.after points calls) id = server.point points id := by
  induction calls generalizing points with
  | nil => rfl
  | cons call calls ih =>
      have hrest := ih (server.afterCall points call)
        (fun c hc => hcalls c (List.mem_cons_of_mem call hc))
      calc server.point (server.after points (call :: calls)) id
          = server.point (server.afterCall points call) id := hrest
        _ = server.point points id :=
            point_afterCall_of_ne server points call (hcalls call List.mem_cons_self)

/-- Among names that differ from a binary's in one byte, its point stays its own. -/
theorem holdsOwn_after {points : C} {s : String} (hown : server.HoldsOwn points s)
    (hcalls : ∀ call ∈ calls,
      call.2.process.binary = s ∨ DiffersOnce (bytes s) (bytes call.2.process.binary)) :
    server.HoldsOwn (server.after points calls) s := by
  induction calls generalizing points with
  | nil => exact hown
  | cons call calls ih =>
      have hstep : server.HoldsOwn (server.afterCall points call) s :=
        holdsOwn_afterCall server points call hown
          ((hcalls call List.mem_cons_self).imp_right stableId_ne)
      exact ih hstep (fun c hc => hcalls c (List.mem_cons_of_mem call hc))

end Runs

/-- Names of one length that differ in one byte have different hashes, so that whatever
    is stored for the one leaves the baseline of the other as it is. -/
theorem baselines_apart (s t : String) (h : DiffersOnce (bytes s) (bytes t)) :
    stableId s ≠ stableId t ∧
      ∀ (C : Type) (server : PointServer C) (points : C)
        (calls : List (SlowPath × NormalizedEvent)),
        (∀ call ∈ calls, call.2.process.binary = t) →
        server.point (server.after points calls) (stableId s) = server.point points (stableId s) := by
  refine ⟨stableId_ne h, fun C server points calls hcalls => ?_⟩
  refine point_after_of_ne server points (fun call hcall => ?_)
  rw [hcalls call hcall]
  exact stableId_ne h

/-- A server that carries every request out. -/
def accepting : PointServer (UInt64 → Option Point) where
  point c id := c id
  put c p := Function.update c p.id (some p)
  put_other _ _ _ hne := Function.update_of_ne hne _ _
  put_self _ _ := .inl (Function.update_self _ _ _)

/-- An `sH` leaves the baseline of `sh` in place. -/
theorem sh_kept : stableId "sh" ≠ stableId "sH" ∧
    ((accepting.after (fun _ => none)
      [(lonelySlowPath, .plainExec "sh"), (lonelySlowPath, .plainExec "sH")])
      (stableId "sh")).map Point.binary = some "sh" := by
  have hdiffers : DiffersOnce (bytes "sh") (bytes "sH") :=
    differsOnce_iff.mpr ⟨[115], 104, 72, [], by decide, by decide, by decide⟩
  have happart := baselines_apart "sh" "sH" hdiffers
  refine ⟨happart.1, ?_⟩
  have hkept := happart.2 _ accepting
    (accepting.after (fun _ => none) [(lonelySlowPath, .plainExec "sh")])
    [(lonelySlowPath, .plainExec "sH")] (List.forall_mem_singleton.mpr rfl)
  have hstored : (accepting.after (fun _ => none) [(lonelySlowPath, .plainExec "sh")])
      (stableId "sh") = some ⟨stableId "sh", [1.0], "sh", 0⟩ := rfl
  exact congrArg (Option.map Point.binary) (hkept.trans hstored)

end VectorGuard
