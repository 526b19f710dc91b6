import Mathlib.Data.List.Perm.Basic

/-!
# First-Match Policies

Ordered rule lists in which the first rule whose guard accepts a request
decides it, over arbitrary rules, requests and keys.

`exists_find?_iff` says when the deciding rule has a property: some rule with
the property accepts the request, and no earlier rule without it does. Rules
that have the property may accept earlier as well; they decide the same way.

A first-match policy is often compiled into a flat set of keys that is looked
up without guards or order: `Listed` is that lookup, a denying rule naming one
of the request's keys. It differs from `Denied` in two ways: a rule whose own
guard rejects the request still contributes its key, and so does a rule that an
earlier rule shields. `denied_iff_reaches` puts denial in terms that can be
compared with it.

A policy assembled from several sources depends on the order of the sources.
`find?_perm_iff` says exactly when it does not: any two sources that both
accept a request decide it alike. One direction puts the two sources in front
in turn; the other follows the deciding rule back to its source.

## Main definitions

* `Denied`: The deciding rule denies.
* `Reaches`: A denying rule accepts with no non-denying one accepting before.
* `Listed`: A denying rule names one of the request's keys.

## Theorems

* `exists_find?_iff`: When the deciding rule has a property.
* `denied_iff_reaches`: Denial is reaching a denying rule.
* `find?_perm_iff`: When the order of sources does not matter.
-/

namespace FirstMatch

variable {ρ α κ β : Type*}

/-- The deciding rule has a property exactly when some rule with the property
    accepts and no earlier rule without it does. -/
theorem exists_find?_iff (p : ρ → Bool) (q : ρ → Prop) (rs : List ρ) :
    (∃ r, rs.find? p = some r ∧ q r) ↔
      ∃ pre r post, rs = pre ++ r :: post ∧ p r = true ∧ q r ∧ ∀ x ∈ pre, ¬ q x → p x = false := by
  constructor
  · intro h
    rcases h with ⟨r, hfind, hq⟩
    rcases List.find?_eq_some_iff_append.mp hfind with ⟨hp, pre, post, hrs, hpre⟩
    exact ⟨pre, r, post, hrs, hp, hq, fun x hx _ => by simpa using hpre x hx⟩
  · intro h
    rcases h with ⟨pre, r, post, hrs, hp, hq, hpre⟩
    -- The deciding rule is an earlier one with the property, or `r` itself.
    cases hfind : pre.find? p with
    | some x =>
        have hx : x ∈ pre := List.mem_of_find?_eq_some hfind
        have hpx : p x = true := List.find?_some hfind
        refine ⟨x, by rw [hrs, List.find?_append, hfind, Option.some_or], ?_⟩
        by_contra hqx
        rw [hpre x hx hqx] at hpx
        exact absurd hpx (by simp only [Bool.false_eq_true, not_false_eq_true])
    | none =>
        refine ⟨r, ?_, hq⟩
        rw [hrs, List.find?_append, hfind, Option.none_or, List.find?_cons_of_pos hp]

section Compiled

variable (guard : ρ → α → Bool) (deny : ρ → Prop) (ruleKeys : ρ → List κ) (keys : α → List κ)

/-- The deciding rule denies the request. -/
def Denied (rs : List ρ) (a : α) : Prop :=
  ∃ r, rs.find? (fun x => guard x a) = some r ∧ deny r

/-- A denying rule accepts the request, and no rule before it that does not
    deny accepts it. -/
def Reaches (rs : List ρ) (a : α) : Prop :=
  ∃ pre r post, rs = pre ++ r :: post ∧ guard r a = true ∧ deny r ∧
    ∀ x ∈ pre, ¬ deny x → guard x a = false

/-- A denying rule names one of the request's keys: the lookup in the flat set
    compiled from the policy. -/
def Listed (rs : List ρ) (a : α) : Prop :=
  ∃ r ∈ rs, deny r ∧ ∃ k ∈ keys a, k ∈ ruleKeys r

theorem denied_iff_reaches (rs : List ρ) (a : α) :
    Denied guard deny rs a ↔ Reaches guard deny rs a :=
  exists_find?_iff (fun x => guard x a) deny rs

end Compiled

section Assembled

variable {ε : Type*} (rulesOf : ε → List ρ)

/-- A rule found in an assembled policy is the one its own source finds. -/
theorem exists_find?_of_flatMap (p : ρ → Bool) (sources : List ε) (r : ρ)
    (h : (sources.flatMap rulesOf).find? p = some r) :
    ∃ e ∈ sources, (rulesOf e).find? p = some r := by
  rw [List.flatMap, List.find?_flatten] at h
  rcases List.exists_of_findSome?_eq_some h with ⟨b, hb, hfind⟩
  rcases List.mem_map.mp hb with ⟨e, he, rfl⟩
  exact ⟨e, he, hfind⟩

/-- The source in front decides if it accepts. -/
theorem find?_flatMap_cons (p : ρ → Bool) (e : ε) (rest : List ε) (r : ρ)
    (h : (rulesOf e).find? p = some r) : ((e :: rest).flatMap rulesOf).find? p = some r := by
  rw [List.flatMap_cons, List.find?_append, h, Option.some_or]

/-- The order of the sources does not matter exactly when any two of them that
    accept decide alike. -/
theorem find?_perm_iff (p : ρ → Bool) (view : ρ → β) (sources : List ε) :
    (∀ l₁ l₂ : List ε, l₁.Perm sources → l₂.Perm sources →
        ((l₁.flatMap rulesOf).find? p).map view = ((l₂.flatMap rulesOf).find? p).map view) ↔
      ∀ e₁ ∈ sources, ∀ e₂ ∈ sources, ∀ r s, (rulesOf e₁).find? p = some r →
        (rulesOf e₂).find? p = some s → view r = view s := by
  constructor
  · intro h e₁ he₁ e₂ he₂ r s hr hs
    -- Each of the two sources is put in front in turn.
    rcases List.append_of_mem he₁ with ⟨pre₁, post₁, hsources₁⟩
    rcases List.append_of_mem he₂ with ⟨pre₂, post₂, hsources₂⟩
    have hperm₁ : (e₁ :: (pre₁ ++ post₁)).Perm sources := hsources₁ ▸ List.perm_middle.symm
    have hperm₂ : (e₂ :: (pre₂ ++ post₂)).Perm sources := hsources₂ ▸ List.perm_middle.symm
    have heq := h _ _ hperm₁ hperm₂
    rw [find?_flatMap_cons rulesOf p e₁ _ r hr, find?_flatMap_cons rulesOf p e₂ _ s hs,
      Option.map_some, Option.map_some, Option.some.injEq] at heq
    exact heq
  · intro h l₁ l₂ h₁ h₂
    have hflat : (l₁.flatMap rulesOf).Perm (l₂.flatMap rulesOf) :=
      (h₁.trans h₂.symm).flatMap_right rulesOf
    cases hf₁ : (l₁.flatMap rulesOf).find? p with
    | none =>
        have hnone : (l₂.flatMap rulesOf).find? p = none := by
          refine List.find?_eq_none.mpr (fun x hx => ?_)
          exact List.find?_eq_none.mp hf₁ x (hflat.mem_iff.mpr hx)
        rw [hnone]
    | some r =>
        have hr : r ∈ l₂.flatMap rulesOf := hflat.mem_iff.mp (List.mem_of_find?_eq_some hf₁)
        have hpr : p r = true := List.find?_some hf₁
        rcases Option.isSome_iff_exists.mp (List.find?_isSome.mpr ⟨r, hr, hpr⟩) with ⟨s, hs⟩
        rcases exists_find?_of_flatMap rulesOf p l₁ r hf₁ with ⟨e₁, he₁, hr₁⟩
        rcases exists_find?_of_flatMap rulesOf p l₂ s hs with ⟨e₂, he₂, hs₂⟩
        rw [hs, Option.map_some, Option.map_some,
          h e₁ (h₁.mem_iff.mp he₁) e₂ (h₂.mem_iff.mp he₂) r s hr₁ hs₂]

end Assembled

end FirstMatch
