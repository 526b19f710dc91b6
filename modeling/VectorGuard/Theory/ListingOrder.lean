import Mathlib.Data.List.ReduceOption
import VectorGuard.Core.FastPath
import VectorGuard.Lib.FirstMatch

/-!
# Directory Listing Order

A rules directory is read in whatever order the file system lists it, and the
rules of all files are concatenated in that order. Evaluation is first match
wins, so the order of two files matters as soon as both hold a rule for the
same event.

`loadDir` falls back to the built-in rules when the files together hold no
rule, which no order changes. Otherwise its rules are those of the entries, one
after the other, and the order is the order of the sources of a first-match
policy.

## Main definitions

* `entryRules`: The rules one listed entry contributes.
* `OrderIrrelevant`: Every two listings of a directory evaluate alike.

## Theorems

* `rules_loadDir`: The rules of a directory listing.
* `orderIrrelevant_iff`: When the listing order does not matter.
-/

namespace VectorGuard

variable (glob : GlobCrate) (fromStr : String → Option RuleSet)

/-- The rules a listed entry contributes, none for one that cannot be read. -/
def entryRules (entry : Option DirEntry) : List Rule :=
  match entry with
  | some e => e.rules fromStr
  | none => []

/-- Two listings of the same directory give rule sets that evaluate every event
    alike. -/
def OrderIrrelevant (entries : List (Option DirEntry)) : Prop :=
  ∀ l₁ l₂ : List (Option DirEntry), l₁.Perm entries → l₂.Perm entries → ∀ ev,
    (RuleSet.loadDir fromStr (some l₁)).evaluate glob ev
      = (RuleSet.loadDir fromStr (some l₂)).evaluate glob ev

theorem flatten_reduceOption (entries : List (Option DirEntry)) :
    (entries.reduceOption.map (fun e => e.rules fromStr)).flatten
      = entries.flatMap (entryRules fromStr) := by
  induction entries with
  | nil =>
      rfl
  | cons entry rest ih =>
      cases entry with
      | none =>
          rw [List.reduceOption_cons_of_none, ih, List.flatMap_cons, entryRules, List.nil_append]
      | some e =>
          rw [List.reduceOption_cons_of_some, List.map_cons, List.flatten_cons, ih,
            List.flatMap_cons, entryRules]

/-- A listing gives the rules of its entries in order, or the built-in ones. -/
theorem rules_loadDir (entries : List (Option DirEntry)) :
    (RuleSet.loadDir fromStr (some entries)).rules =
      if entries.flatMap (entryRules fromStr) = [] then builtinRules
      else entries.flatMap (entryRules fromStr) := by
  unfold RuleSet.loadDir
  simp only [flatten_reduceOption, List.isEmpty_iff]
  by_cases hempty : entries.flatMap (entryRules fromStr) = []
  · rw [if_pos hempty, if_pos hempty]
  · rw [if_neg hempty, if_neg hempty]

/-- The verdict of a rule set as what its deciding rule shows. -/
theorem evaluate_eq_map_find? (rs : RuleSet) (ev : NormalizedEvent) :
    rs.evaluate glob ev =
      (rs.rules.find? (fun r => r.matchesEvent glob ev)).map
        (fun r => (r.action.toAction, r.name)) := rfl

/-- The listing order does not matter exactly when any two entries that have a
    rule for an event let it be decided by rules of one action and name. -/
theorem orderIrrelevant_iff (entries : List (Option DirEntry)) :
    OrderIrrelevant glob fromStr entries ↔
      ∀ e₁ ∈ entries, ∀ e₂ ∈ entries, ∀ ev r s,
        (entryRules fromStr e₁).find? (fun r => r.matchesEvent glob ev) = some r →
        (entryRules fromStr e₂).find? (fun r => r.matchesEvent glob ev) = some s →
        r.action = s.action ∧ r.name = s.name := by
  have hview : ∀ r s : Rule, (r.action.toAction, r.name) = (s.action.toAction, s.name) ↔
      r.action = s.action ∧ r.name = s.name := by
    intro r s
    rw [Prod.mk.injEq]
    exact and_congr_left (fun _ => ⟨toAction_inj r.action s.action, fun h => by rw [h]⟩)
  -- Whether the files hold any rule does not depend on the order.
  have hempty : ∀ l : List (Option DirEntry), l.Perm entries →
      (l.flatMap (entryRules fromStr) = [] ↔ entries.flatMap (entryRules fromStr) = []) := by
    intro l hl
    have hperm := hl.flatMap_right (entryRules fromStr)
    exact ⟨fun h => (h ▸ hperm).symm.eq_nil, fun h => (h ▸ hperm).eq_nil⟩
  unfold OrderIrrelevant
  by_cases hnone : entries.flatMap (entryRules fromStr) = []
  · -- No entry has a rule: every listing gives the built-in ones.
    constructor
    · intro _ e₁ he₁ e₂ _ ev r _ hr
      have hmem : r ∈ entries.flatMap (entryRules fromStr) :=
        List.mem_flatMap.mpr ⟨e₁, he₁, List.mem_of_find?_eq_some hr⟩
      rw [hnone] at hmem
      exact absurd hmem List.not_mem_nil
    · intro _ l₁ l₂ h₁ h₂ ev
      rw [evaluate_eq_map_find?, evaluate_eq_map_find?, rules_loadDir, rules_loadDir,
        if_pos ((hempty l₁ h₁).mpr hnone), if_pos ((hempty l₂ h₂).mpr hnone)]
  · -- Otherwise the entries are the sources of a first-match policy.
    have hsome : ∀ l : List (Option DirEntry), l.Perm entries → ∀ ev,
        (RuleSet.loadDir fromStr (some l)).evaluate glob ev =
          ((l.flatMap (entryRules fromStr)).find? (fun r => r.matchesEvent glob ev)).map
            (fun r => (r.action.toAction, r.name)) := by
      intro l hl ev
      rw [evaluate_eq_map_find?, rules_loadDir, if_neg (fun h => hnone ((hempty l hl).mp h))]
    have hiff := fun ev => FirstMatch.find?_perm_iff (entryRules fromStr)
      (fun r : Rule => r.matchesEvent glob ev) (fun r => (r.action.toAction, r.name)) entries
    constructor
    · intro h e₁ he₁ e₂ he₂ ev r s hr hs
      refine (hview r s).mp ((hiff ev).mp (fun l₁ l₂ h₁ h₂ => ?_) e₁ he₁ e₂ he₂ r s hr hs)
      rw [← hsome l₁ h₁ ev, ← hsome l₂ h₂ ev]
      exact h l₁ l₂ h₁ h₂ ev
    · intro h l₁ l₂ h₁ h₂ ev
      rw [hsome l₁ h₁ ev, hsome l₂ h₂ ev]
      refine (hiff ev).mpr (fun e₁ he₁ e₂ he₂ r s hr hs => ?_) l₁ l₂ h₁ h₂
      exact (hview r s).mpr (h e₁ he₁ e₂ he₂ ev r s hr hs)

def allowText : String :=
  "[[rules]]\nname = \"allow-nc\"\naction = \"allow\"\nmatch_process = [\"nc\"]\n"

def blockText : String :=
  "[[rules]]\nname = \"block-nc\"\naction = \"block\"\nmatch_process = [\"nc\"]\n"

/-- What the two texts parse to. -/
def parseNc (text : String) : Option RuleSet :=
  if text = allowText then some ⟨[{ Rule.bare "allow-nc" .allow with matchProcess := ["nc"] }]⟩
  else if text = blockText then some ⟨[{ Rule.bare "block-nc" .block with matchProcess := ["nc"] }]⟩
  else none

/-- A directory of two files, one that allows `nc` and one that blocks it. -/
def ncListing : List (Option DirEntry) :=
  [some ⟨bytes "allow.toml", some allowText⟩, some ⟨bytes "block.toml", some blockText⟩]

/-- The file that is listed first decides whether `nc` is blocked. -/
theorem ncListing_order_matters : ¬ OrderIrrelevant GlobCrate.literal parseNc ncListing := by
  intro h
  have hswap : ncListing.reverse.Perm ncListing := List.reverse_perm ncListing
  have heq := h ncListing ncListing.reverse (List.Perm.refl _) hswap (.plainExec "nc")
  exact absurd heq (by decide)

end VectorGuard
