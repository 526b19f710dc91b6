import VectorGuard.Theory.Shelves

/-!
# Reviews

What a reviewer can rely on, over every run of a store.

Without the automatic mode nothing that the advisor wrote becomes a rule by itself: a
file in the rules directory was there before the run, or somebody approved it while it
was a proposal with just these contents, and the proposal in turn is one of the run or
was there before. No run changes a rule file whose name is not one that approving gives.

A proposal is decided once. Every decision that succeeds takes a proposal off the shelf,
so of all reviewers who approve or reject it at most one succeeds for each time that it
was staged, whatever the others do in between.

Both are shown of the shelves and hold of the files by the refinement.

## Main definitions

* `decides`, `stages`: The operations that decide on an id, and those that stage it.
* `succeeded`: The operations of a run that returned no error.

## Theorems

* `Settled.rules_of_run`: Where a file in the rules directory comes from.
* `Settled.decided_once`: Decisions are not more than proposals.
-/

namespace VectorGuard

open FileTree

variable {toText : RuleSet → Option String} {sh : Shelves} {now : Nat}

/-! ### Where a rule comes from -/

/-- A file that an operation puts on the second shelf was a proposal that it approves. -/
theorem rules_apply {op : StoreOp} (hmanual : ∀ rule, op ≠ .stageAuto rule) {name : String}
    {file : FileData} (h : (sh.apply toText now op).rules name = some file) :
    sh.rules name = some file ∨
      ∃ id, op = .approve id ∧ name = ruleFileName id ∧ sh.pending id = some file := by
  cases op with
  | stagePending rule =>
      unfold Shelves.apply at h
      dsimp only at h
      split at h <;> exact .inl h
  | stageAuto rule =>
      exact absurd rfl (hmanual rule)
  | approve id =>
      unfold Shelves.apply at h
      dsimp only at h
      cases hpending : sh.pending id with
      | none =>
          rw [hpending] at h
          exact .inl h
      | some proposal =>
          rw [hpending] at h
          dsimp only at h
          split at h
          · dsimp only at h
            by_cases hname : name = ruleFileName id
            · rw [hname, Function.update_self] at h
              exact .inr ⟨id, rfl, hname, hpending.trans h⟩
            · rw [Function.update_of_ne hname] at h
              exact .inl h
          · exact .inl h
  | reject id =>
      exact .inl h
  | reapExpired ttl =>
      unfold Shelves.apply Shelves.swept at h
      dsimp only at h
      split at h
      · exact .inl (Option.filter_eq_some_iff.mp h).1
      · exact .inl h

/-- A proposal was there or is staged. -/
theorem pending_apply {op : StoreOp} {id : String} {file : FileData}
    (h : (sh.apply toText now op).pending id = some file) :
    sh.pending id = some file ∨
      ∃ rule, op = .stagePending rule ∧ id = makeId now rule.name ∧
        Shelves.staged toText (id ++ ".toml") now rule = some file := by
  cases op with
  | stagePending rule =>
      unfold Shelves.apply at h
      dsimp only at h
      cases hstaged : Shelves.staged toText (makeId now rule.name ++ ".toml") now rule with
      | none =>
          rw [hstaged] at h
          exact .inl h
      | some proposal =>
          rw [hstaged] at h
          dsimp only at h
          by_cases hid : id = makeId now rule.name
          · rw [hid, Function.update_self] at h
            exact .inr ⟨rule, rfl, hid, by rw [hid]; exact hstaged.trans h⟩
          · rw [Function.update_of_ne hid] at h
            exact .inl h
  | stageAuto rule =>
      unfold Shelves.apply at h
      dsimp only at h
      split at h <;> exact .inl h
  | approve other =>
      unfold Shelves.apply at h
      dsimp only at h
      split at h
      · exact .inl h
      · split at h
        · dsimp only at h
          by_cases hid : id = other
          · rw [hid, Function.update_self] at h
            exact absurd h (by simp)
          · rw [Function.update_of_ne hid] at h
            exact .inl h
        · exact .inl h
  | reject other =>
      unfold Shelves.apply at h
      dsimp only at h
      by_cases hid : id = other
      · rw [hid, Function.update_self] at h
        exact absurd h (by simp)
      · rw [Function.update_of_ne hid] at h
        exact .inl h
  | reapExpired ttl =>
      exact .inl h

/-- A proposal was there before a run or is staged in it. -/
theorem pending_run {ops : List (Nat × StoreOp)} {id : String} {file : FileData}
    (h : (sh.run toText ops).pending id = some file) :
    sh.pending id = some file ∨
      ∃ t rule, (t, .stagePending rule) ∈ ops ∧ id = makeId t rule.name ∧
        Shelves.staged toText (id ++ ".toml") t rule = some file := by
  induction ops generalizing sh with
  | nil =>
      exact .inl h
  | cons op ops ih =>
      rcases ih h with hfirst | ⟨t, rule, hmem, hstaged⟩
      · rcases pending_apply hfirst with hstart | ⟨rule, hop, hstaged⟩
        · exact .inl hstart
        · exact .inr ⟨op.1, rule, List.mem_cons.mpr (.inl (by rw [← hop])), hstaged⟩
      · exact .inr ⟨t, rule, List.mem_cons_of_mem op hmem, hstaged⟩

/-- A rule file was there before a run or is approved in it. -/
theorem rules_run {ops : List (Nat × StoreOp)} (hmanual : ∀ op ∈ ops, ∀ rule, op.2 ≠ .stageAuto rule)
    {name : String} {file : FileData} (h : (sh.run toText ops).rules name = some file) :
    sh.rules name = some file ∨
      ∃ before t id after, ops = before ++ (t, .approve id) :: after ∧ name = ruleFileName id ∧
        (sh.run toText before).pending id = some file := by
  induction ops generalizing sh with
  | nil =>
      exact .inl h
  | cons op ops ih =>
      rcases ih (fun op' h' => hmanual op' (List.mem_cons_of_mem op h')) h with
        hfirst | ⟨before, t, id, after, hsplit, happroved⟩
      · rcases rules_apply (hmanual op List.mem_cons_self) hfirst with
          hstart | ⟨id, hop, happroved⟩
        · exact .inl hstart
        · exact .inr ⟨[], op.1, id, ops, by rw [← hop]; rfl, happroved⟩
      · exact .inr ⟨op :: before, t, id, after, by rw [hsplit]; rfl, happroved⟩

variable (toText sh) in
/-- A rule file whose name approving does not give is on the shelf as it was. -/
theorem rules_of_other {name : String} (hname : reapable name = false)
    (ops : List (Nat × StoreOp)) : (sh.run toText ops).rules name = sh.rules name := by
  have hother : ∀ id, name ≠ ruleFileName id := by
    intro id heq
    rw [heq, reapable_ruleFileName] at hname
    exact absurd hname (by decide)
  induction ops generalizing sh with
  | nil =>
      rfl
  | cons op ops ih =>
      refine (ih (sh.apply toText op.1 op.2)).trans ?_
      unfold Shelves.apply
      split
      · split <;> rfl
      · split
        · rfl
        · exact Function.update_of_ne (hother _) _ _
      · split
        · rfl
        · split
          · exact Function.update_of_ne (hother _) _ _
          · rfl
      · rfl
      · unfold Shelves.swept
        dsimp only
        rw [hname]
        exact if_neg Bool.false_ne_true

/-! ### Decisions -/

/-- An operation decides on a proposal. -/
def decides (id : String) : StoreOp → Bool
  | .approve id' | .reject id' => id' == id
  | _ => false

/-- An operation at a time stages under an id. -/
def stages (id : String) (op : Nat × StoreOp) : Bool :=
  match op.2 with
  | .stagePending rule => makeId op.1 rule.name == id
  | _ => false

/-- The operations that returned no error. -/
def succeeded (ops : List (Nat × StoreOp)) (results : List Bool) : List (Nat × StoreOp) :=
  ((ops.zip results).filter (fun r => r.2)).map Prod.fst

/-- There is a proposal, as a number. -/
def Shelves.waiting (sh : Shelves) (id : String) : Nat := (sh.pending id).isSome.toNat

theorem succeeded_cons (op : Nat × StoreOp) (ops : List (Nat × StoreOp)) (result : Bool)
    (results : List Bool) :
    succeeded (op :: ops) (result :: results)
      = (if result = true then [op] else []) ++ succeeded ops results := by
  unfold succeeded
  rw [List.zip_cons_cons, List.filter_cons]
  split <;> rfl

variable (toText sh) in
/-- A decision that succeeds takes a proposal away, and staging adds one at most. -/
theorem waiting_apply (id : String) (op : Nat × StoreOp) :
    (sh.outcome toText op.1 op.2 && decides id op.2).toNat
        + (sh.apply toText op.1 op.2).waiting id
      ≤ (sh.outcome toText op.1 op.2 && stages id op).toNat + sh.waiting id := by
  have hother : ∀ {a : String}, id ≠ a → (a == id) = false :=
    fun h => beq_eq_false_iff_ne.mpr h.symm
  rcases op with ⟨t, op⟩
  cases op with
  | stagePending rule =>
      unfold Shelves.outcome Shelves.apply decides stages Shelves.waiting
      dsimp only
      cases Shelves.staged toText (makeId t rule.name ++ ".toml") t rule with
      | none => simp
      | some body =>
          by_cases hid : id = makeId t rule.name
          · rw [← hid]
            simp
          · simp [hother hid, Function.update_of_ne hid]
  | stageAuto rule =>
      have hsame : (sh.apply toText t (.stageAuto rule)).pending = sh.pending := by
        unfold Shelves.apply
        dsimp only
        split <;> rfl
      unfold decides stages Shelves.waiting
      rw [hsame]
  | approve other =>
      unfold Shelves.outcome Shelves.apply decides stages Shelves.waiting
      dsimp only
      cases hpending : sh.pending other with
      | none => simp
      | some file =>
          cases hfits : fits (ruleFileName other) with
          | false => simp
          | true =>
              by_cases hid : id = other
              · rw [hid, hpending]
                simp
              · simp [hother hid, Function.update_of_ne hid]
  | reject other =>
      unfold Shelves.outcome Shelves.apply decides stages Shelves.waiting
      dsimp only
      by_cases hid : id = other
      · rw [hid]
        cases sh.pending other <;> simp
      · simp [hother hid, Function.update_of_ne hid]
  | reapExpired ttl =>
      unfold Shelves.outcome Shelves.apply decides stages Shelves.waiting
      simp

theorem decided_run (id : String) (ops : List (Nat × StoreOp)) :
    (succeeded ops (sh.outcomes toText ops)).countP (fun op => decides id op.2)
        + (sh.run toText ops).waiting id
      ≤ (succeeded ops (sh.outcomes toText ops)).countP (stages id) + sh.waiting id := by
  induction ops generalizing sh with
  | nil =>
      exact Nat.le_refl _
  | cons op ops ih =>
      have hfirst := waiting_apply toText sh id op
      have hrest := @ih (sh.apply toText op.1 op.2)
      have hrun : sh.run toText (op :: ops) = (sh.apply toText op.1 op.2).run toText ops := rfl
      unfold Shelves.outcomes
      rw [succeeded_cons, List.countP_append, List.countP_append, hrun]
      -- An operation that fails is not counted.
      cases hout : sh.outcome toText op.1 op.2 with
      | false =>
          rw [hout, Bool.false_and, Bool.false_and, Bool.toNat_false] at hfirst
          rw [if_neg Bool.false_ne_true, List.countP_nil, List.countP_nil]
          omega
      | true =>
          rw [hout, Bool.true_and, Bool.true_and] at hfirst
          rw [if_pos rfl, List.countP_singleton, List.countP_singleton]
          cases hdecides : decides id op.2 <;> cases hstages : stages id op <;>
            simp [hdecides, hstages] at hfirst ⊢ <;> omega

/-! ### Files -/

section Files

variable {store : ApprovalStore} {fs : FileTree} {pdir adir : Path}

/-- In a run without the automatic mode, a file in the rules directory was there before, or
    is a proposal that was approved as it is, and that was there before or was staged in the
    run before it was approved. In no run does a rule file change whose name approving does
    not give. -/
theorem Settled.rules_of_run (h : Settled store fs pdir adir) (ops : List (Nat × StoreOp))
    (hplain : ∀ op ∈ ops, op.2.Plain) :
    (∀ name, reapable name = false →
      (runStore toText store fs ops).contents (adir ++ [name]) = fs.contents (adir ++ [name])) ∧
    ((∀ op ∈ ops, ∀ rule, op.2 ≠ .stageAuto rule) → ∀ name file,
      (runStore toText store fs ops).contents (adir ++ [name]) = some file →
        fs.contents (adir ++ [name]) = some file ∨
        ∃ before t id after, ops = before ++ (t, .approve id) :: after ∧ name = ruleFileName id ∧
          (runStore toText store fs before).contents (pdir ++ [id ++ ".toml"]) = some file ∧
          (fs.contents (pdir ++ [id ++ ".toml"]) = some file ∨
            ∃ t' rule, (t', .stagePending rule) ∈ before ∧ id = makeId t' rule.name ∧
              Shelves.staged toText (id ++ ".toml") t' rule = some file)) := by
  have hrun := (h.run_shelved toText ops hplain).2
  constructor
  · intro name hname
    have hsame := rules_of_other toText (shelvesOf pdir adir fs.contents) hname ops
    rw [← hrun] at hsame
    exact hsame
  · intro hmanual name file hheld
    have hshelf : ((shelvesOf pdir adir fs.contents).run toText ops).rules name = some file := by
      rw [← hrun]
      exact hheld
    rcases rules_run hmanual hshelf with hstart | ⟨before, t, id, after, hsplit, hname, happroved⟩
    · exact .inl hstart
    · -- What was on the first shelf then was in the pending directory.
      have hbefore : ∀ op ∈ before, op.2.Plain :=
        fun op hop => hplain op (by rw [hsplit]; exact List.mem_append_left _ hop)
      have hfiles := (h.run_shelved toText before hbefore).2
      refine .inr ⟨before, t, id, after, hsplit, hname, ?_, pending_run happroved⟩
      rw [← hfiles] at happroved
      exact happroved

/-- Of all approvals and rejections of an id, no more succeed than there were proposals:
    one for each time it was staged in the run, and one if it was there before. -/
theorem Settled.decided_once (h : Settled store fs pdir adir) (ops : List (Nat × StoreOp))
    (hplain : ∀ op ∈ ops, op.2.Plain) (id : String) :
    (succeeded ops (outcomes toText store fs ops)).countP (fun op => decides id op.2)
        + (shelvesOf pdir adir (runStore toText store fs ops).contents).waiting id
      ≤ (succeeded ops (outcomes toText store fs ops)).countP (stages id)
        + (shelvesOf pdir adir fs.contents).waiting id := by
  rw [h.outcomes_run toText ops hplain, (h.run_shelved toText ops hplain).2]
  exact decided_run id ops

end Files

/-- An approved rule was a proposal, which the run staged. -/
theorem reviewed_rules :
    (∀ name, reapable name = false →
      (runStore (fun _ => some "") exampleStore bothDirs review).contents (["rules"] ++ [name])
        = bothDirs.contents (["rules"] ++ [name])) ∧
    ((∀ op ∈ review, ∀ rule, op.2 ≠ .stageAuto rule) → ∀ name file,
      (runStore (fun _ => some "") exampleStore bothDirs review).contents (["rules"] ++ [name])
          = some file →
        bothDirs.contents (["rules"] ++ [name]) = some file ∨
        ∃ before t id after, review = before ++ (t, .approve id) :: after ∧
          name = ruleFileName id ∧
          (runStore (fun _ => some "") exampleStore bothDirs before).contents
            (["pending"] ++ [id ++ ".toml"]) = some file ∧
          (bothDirs.contents (["pending"] ++ [id ++ ".toml"]) = some file ∨
            ∃ t' rule, (t', .stagePending rule) ∈ before ∧ id = makeId t' rule.name ∧
              Shelves.staged (fun _ => some "") (id ++ ".toml") t' rule = some file)) :=
  settled_bothDirs.rules_of_run review plain_review

/-- Of the approval and the rejection that came after it, one succeeded. -/
theorem review_decided :
    (succeeded review (outcomes (fun _ => some "") exampleStore bothDirs review)).countP
          (fun op => decides "1-r" op.2)
        + (shelvesOf ["pending"] ["rules"]
            (runStore (fun _ => some "") exampleStore bothDirs review).contents).waiting "1-r"
      ≤ (succeeded review (outcomes (fun _ => some "") exampleStore bothDirs review)).countP
          (stages "1-r")
        + (shelvesOf ["pending"] ["rules"] bothDirs.contents).waiting "1-r" :=
  settled_bothDirs.decided_once review plain_review "1-r"

end VectorGuard
