import VectorGuard.Core.MapOps

/-!
# Loading Rules into the Kernel

What `loadRules` leaves in the three maps, for every prior content and every
rule list.

Clearing empties the maps, so nothing of the prior content plays a part in the
result. The three fills that follow are the same fill of an empty map at three
key types: it succeeds exactly when the distinct keys fit, and otherwise leaves
the first 256 of them. `loadRules` stops at the first fill that fails, so a map
is filled only if every earlier list fits.

A load that fails has therefore already emptied the maps, and it is harmless
only if the maps held what it leaves.

## Main definitions

* `Fits`: The distinct keys of a list fit a map.
* `installed`: An empty map filled from a list.
* `BlockMaps.HoldsExactly`: The maps hold the keys of a rule list and no others.
* `BlockMaps.HoldsLeftovers`: The maps hold what a load from the keys leaves.
* `LoadsAllOrNothing`: A load takes full effect or none.

## Theorems

* `insertAll_empty_eq`: Filling an empty map.
* `loadRules_eq`: The maps and the result of a load.
* `holdsExactly_of_loadRules`: After a successful load the maps hold exactly
  the keys of the list.
* `holdsExactly_iff`: The keys of the three maps, all at once.
* `loadsAllOrNothing_iff`: When a load takes full effect or none.
-/

namespace VectorGuard

section Fill

variable {K : Type} [DecidableEq K]

/-- The first distinct keys of a list, as many as a map has entries. -/
def firstKeys (ks : List K) : List K := ks.eraseDups.take 256

/-- What a map holding the first keys of a list answers. -/
def heldFrom (ks : List K) (k : K) : Option UInt8 :=
  if k ∈ firstKeys ks then some 1 else none

/-- The distinct keys of a list fit a map. -/
def Fits (ks : List K) : Prop := ks.eraseDups.length ≤ 256

instance (ks : List K) : Decidable (Fits ks) :=
  inferInstanceAs (Decidable (ks.eraseDups.length ≤ 256))

/-- An empty map filled from a list, up to the first key that is refused. -/
def installed (ks : List K) : BoundedMap K UInt8 256 :=
  (BoundedMap.insertAll 1 BoundedMap.empty ks).1

theorem insertAll_empty_eq (ks : List K) :
    BoundedMap.insertAll (1 : UInt8) (BoundedMap.empty : BoundedMap K UInt8 256) ks
      = (installed ks, decide (Fits ks)) := by
  have hok := BoundedMap.insertAll_ok_iff (1 : UInt8) ks (BoundedMap.empty : BoundedMap K UInt8 256)
  rw [BoundedMap.fresh_empty, BoundedMap.size_empty, Nat.zero_add] at hok
  refine Prod.ext rfl ?_
  exact (Bool.eq_iff_iff.mpr (hok.trans decide_eq_true_iff.symm))

theorem get?_installed (ks : List K) (k : K) : (installed ks).get? k = heldFrom ks k :=
  BoundedMap.get?_insertAll_empty 1 ks k

theorem mem_installed (ks : List K) (k : K) : k ∈ installed ks ↔ k ∈ firstKeys ks := by
  rw [← BoundedMap.isSome_get?, get?_installed]
  unfold heldFrom
  by_cases hk : k ∈ firstKeys ks
  · simp only [hk, if_true, Option.isSome_some]
  · simp only [hk, if_false, Option.isSome_none, Bool.false_eq_true]

theorem mem_firstKeys_of_fits (ks : List K) (h : Fits ks) (k : K) : k ∈ firstKeys ks ↔ k ∈ ks := by
  unfold firstKeys
  rw [List.take_of_length_le h, List.mem_eraseDups]

theorem eraseDups_of_nodup (ks : List K) (h : ks.Nodup) : ks.eraseDups = ks := by
  induction ks with
  | nil =>
      rfl
  | cons k ks ih =>
      rcases List.nodup_cons.mp h with ⟨hk, hks⟩
      -- No later key is a copy of the first.
      have hfilter : ks.filter (fun b => !b == k) = ks := by
        refine List.filter_eq_self.mpr (fun b hb => ?_)
        have hne : b ≠ k := fun hbk => hk (hbk ▸ hb)
        simp only [beq_eq_false_iff_ne.mpr hne, Bool.not_false]
      rw [List.eraseDups_cons, hfilter, ih hks]

theorem fits_iff_of_nodup (ks : List K) (h : ks.Nodup) : Fits ks ↔ ks.length ≤ 256 := by
  unfold Fits
  rw [eraseDups_of_nodup ks h]

end Fill

/-- Every key list fits its map. -/
def BlockKeys.Fit (keys : BlockKeys) : Prop :=
  Fits keys.comms ∧ Fits keys.ports ∧ Fits keys.uids

instance (keys : BlockKeys) : Decidable keys.Fit :=
  inferInstanceAs (Decidable (Fits keys.comms ∧ Fits keys.ports ∧ Fits keys.uids))

/-- The maps hold the given keys and no others. -/
def BlockMaps.HoldsExactly (maps : BlockMaps) (keys : BlockKeys) : Prop :=
  (∀ k, k ∈ maps.comms ↔ k ∈ keys.comms) ∧ (∀ k, k ∈ maps.ports ↔ k ∈ keys.ports) ∧
    ∀ k, k ∈ maps.uids ↔ k ∈ keys.uids

/-- Two states of the maps answer every lookup alike. -/
def BlockMaps.SameContent (maps maps' : BlockMaps) : Prop :=
  (∀ k, maps.comms.get? k = maps'.comms.get? k) ∧
    (∀ k, maps.ports.get? k = maps'.ports.get? k) ∧ ∀ k, maps.uids.get? k = maps'.uids.get? k

/-- The maps hold the first keys of each list, up to and including the first
    list that does not fit, and nothing of the lists behind it. -/
def BlockMaps.HoldsLeftovers (maps : BlockMaps) (keys : BlockKeys) : Prop :=
  (∀ k, maps.comms.get? k = heldFrom keys.comms k) ∧
    (∀ k, maps.ports.get? k = if Fits keys.comms then heldFrom keys.ports k else none) ∧
    ∀ k, maps.uids.get? k
      = if Fits keys.comms ∧ Fits keys.ports then heldFrom keys.uids k else none

section Load

variable (prior : BlockMaps) (rules : List Rule)

/-- The maps and the result of a load. Only the key lists matter. -/
theorem loadRules_eq :
    loadRules prior rules =
      ({ comms := installed (computeBlockKeys rules).comms
         ports := if Fits (computeBlockKeys rules).comms
           then installed (computeBlockKeys rules).ports else BoundedMap.empty
         uids := if Fits (computeBlockKeys rules).comms ∧ Fits (computeBlockKeys rules).ports
           then installed (computeBlockKeys rules).uids else BoundedMap.empty },
        if (computeBlockKeys rules).Fit then .ok () else .error .full) := by
  unfold loadRules BlockKeys.Fit
  rw [clear_eq_empty]
  simp only [BlockMaps.empty, insertAll_empty_eq]
  -- The flags of the three fills, in the order they are tested.
  by_cases hcomms : Fits (computeBlockKeys rules).comms
  · by_cases hports : Fits (computeBlockKeys rules).ports
    · by_cases huids : Fits (computeBlockKeys rules).uids
      · simp only [hcomms, hports, huids, decide_true, if_true, and_self]
      · simp only [hcomms, hports, huids, decide_true, decide_false, if_true, and_self, and_false,
          if_false]
    · simp only [hcomms, hports, decide_true, decide_false, if_true, and_false, false_and, if_false]
  · simp only [hcomms, decide_false, if_false, false_and]

theorem loadRules_ok_iff :
    (loadRules prior rules).2 = .ok () ↔ (computeBlockKeys rules).Fit := by
  rw [loadRules_eq]
  by_cases hfit : (computeBlockKeys rules).Fit
  · simp only [hfit, if_true]
  · simp only [hfit, if_false, reduceCtorEq]

theorem loadRules_of_fit (h : (computeBlockKeys rules).Fit) :
    loadRules prior rules = ((loadRules prior rules).1, .ok ()) :=
  Prod.ext rfl ((loadRules_ok_iff prior rules).mpr h)

/-- What a load leaves answers lookups from its own keys alone. -/
theorem holdsLeftovers_loadRules :
    (loadRules prior rules).1.HoldsLeftovers (computeBlockKeys rules) := by
  rw [loadRules_eq]
  -- A list behind one that does not fit was never begun, and its map is empty.
  refine ⟨fun k => get?_installed _ k, fun k => ?_, fun k => ?_⟩
  · by_cases hcomms : Fits (computeBlockKeys rules).comms
    · simp only [hcomms, if_true]
      exact get?_installed _ k
    · simp only [hcomms, if_false]
      exact (BoundedMap.get?_eq_none _ k).mpr (BoundedMap.notMem_empty k)
  · by_cases hfits : Fits (computeBlockKeys rules).comms ∧ Fits (computeBlockKeys rules).ports
    · rw [if_pos hfits, if_pos hfits]
      exact get?_installed _ k
    · rw [if_neg hfits, if_neg hfits]
      exact (BoundedMap.get?_eq_none _ k).mpr (BoundedMap.notMem_empty k)

theorem holdsExactly_of_fit (h : (computeBlockKeys rules).Fit) :
    (loadRules prior rules).1.HoldsExactly (computeBlockKeys rules) := by
  rcases h with ⟨hcomms, hports, huids⟩
  have hboth := And.intro hcomms hports
  rw [loadRules_eq]
  simp only [if_pos hcomms, if_pos hboth]
  refine ⟨fun k => ?_, fun k => ?_, fun k => ?_⟩
  · rw [mem_installed, mem_firstKeys_of_fits _ hcomms]
  · rw [mem_installed, mem_firstKeys_of_fits _ hports]
  · rw [mem_installed, mem_firstKeys_of_fits _ huids]

end Load

/-- After a successful load the maps hold the keys of the list, whatever they
    held before. -/
theorem holdsExactly_of_loadRules (prior maps : BlockMaps) (rules : List Rule)
    (h : loadRules prior rules = (maps, .ok ())) : maps.HoldsExactly (computeBlockKeys rules) := by
  have hfit := (loadRules_ok_iff prior rules).mp (by rw [h])
  have hexact := holdsExactly_of_fit prior rules hfit
  rw [h] at hexact
  exact hexact

/-- The keys of the three maps, all at once. -/
theorem holdsExactly_iff (maps : BlockMaps) (keys : BlockKeys) :
    maps.HoldsExactly keys ↔ ∀ k, maps.holds k ↔ keys.has k := by
  constructor
  · intro h k
    rcases h with ⟨hcomms, hports, huids⟩
    cases k with
    | comm key =>
        rw [BlockMaps.holds, BlockKeys.has_comm, hcomms key]
    | port port =>
        rw [BlockMaps.holds, BlockKeys.has_port, hports port]
    | uid uid =>
        rw [BlockMaps.holds, BlockKeys.has_uid, huids uid]
  · intro h
    refine ⟨fun key => ?_, fun port => ?_, fun uid => ?_⟩
    · rw [← BlockKeys.has_comm]
      exact h (.comm key)
    · rw [← BlockKeys.has_port]
      exact h (.port port)
    · rw [← BlockKeys.has_uid]
      exact h (.uid uid)

theorem BlockMaps.HoldsLeftovers.sameContent {maps maps' : BlockMaps} {keys : BlockKeys}
    (h : maps.HoldsLeftovers keys) (h' : maps'.HoldsLeftovers keys) : maps.SameContent maps' := by
  rcases h with ⟨hcomms, hports, huids⟩
  rcases h' with ⟨hcomms', hports', huids'⟩
  refine ⟨fun k => ?_, fun k => ?_, fun k => ?_⟩
  · rw [hcomms k, hcomms' k]
  · rw [hports k, hports' k]
  · rw [huids k, huids' k]

theorem BlockMaps.HoldsLeftovers.of_sameContent {maps maps' : BlockMaps} {keys : BlockKeys}
    (h : maps.HoldsLeftovers keys) (hsame : maps.SameContent maps') : maps'.HoldsLeftovers keys := by
  rcases h with ⟨hcomms, hports, huids⟩
  rcases hsame with ⟨hcomms', hports', huids'⟩
  refine ⟨fun k => ?_, fun k => ?_, fun k => ?_⟩
  · rw [← hcomms' k, hcomms k]
  · rw [← hports' k, hports k]
  · rw [← huids' k, huids k]

/-- A load that succeeds installs exactly the keys of the list, and one that
    fails changes nothing. -/
def LoadsAllOrNothing (prior : BlockMaps) (rules : List Rule) : Prop :=
  ((loadRules prior rules).2 = .ok () ∧
      (loadRules prior rules).1.HoldsExactly (computeBlockKeys rules)) ∨
    ((loadRules prior rules).2 = .error .full ∧ (loadRules prior rules).1.SameContent prior)

/-- A load is all or nothing exactly when every key list fits, or the maps
    already hold what the failing load leaves. -/
theorem loadsAllOrNothing_iff (prior : BlockMaps) (rules : List Rule) :
    LoadsAllOrNothing prior rules ↔
      (computeBlockKeys rules).Fit ∨ prior.HoldsLeftovers (computeBlockKeys rules) := by
  have hleft := holdsLeftovers_loadRules prior rules
  constructor
  · intro h
    rcases h with ⟨hok, _⟩ | ⟨_, hsame⟩
    · exact Or.inl ((loadRules_ok_iff prior rules).mp hok)
    · exact Or.inr (hleft.of_sameContent hsame)
  · intro h
    -- The prior content matters only to a load that is refused.
    by_cases hfit : (computeBlockKeys rules).Fit
    · exact Or.inl ⟨(loadRules_ok_iff prior rules).mpr hfit, holdsExactly_of_fit prior rules hfit⟩
    · have hprior := h.resolve_left hfit
      refine Or.inr ⟨?_, hleft.sameContent hprior⟩
      rw [loadRules_eq, if_neg hfit]

theorem nodup_ports_257 : ((List.range 257).map UInt16.ofNat).Nodup := by
  refine List.Nodup.map_on (fun a ha b hb hab => ?_) List.nodup_range
  have ha' := List.mem_range.mp ha
  have hb' := List.mem_range.mp hb
  have hnat := congrArg UInt16.toNat hab
  simp only [UInt16.toNat_ofNat'] at hnat
  omega

/-- A rule that blocks everything one user does. -/
def rootRule : Rule := { Rule.bare "block-root" .block with matchUid := some 0 }

/-- The maps with that rule in force. -/
def rootMaps : BlockMaps := (loadRules BlockMaps.empty [rootRule]).1

theorem loadRules_rootRule : loadRules BlockMaps.empty [rootRule] = (rootMaps, .ok ()) :=
  loadRules_of_fit _ _ (by decide)

/-- A rule on one port more than a map has entries. -/
def portsRule : Rule :=
  { Rule.bare "block-ports" .block with matchPort := (List.range 257).map UInt16.ofNat }

theorem not_fits_portsRule : ¬ Fits (computeBlockKeys [portsRule]).ports := by
  have hports : (computeBlockKeys [portsRule]).ports = (List.range 257).map UInt16.ofNat := by
    simp only [computeBlockKeys, portsRule, Rule.bare, decide_true, List.filter_cons_of_pos,
      List.filter_nil, List.flatMap_cons, List.flatMap_nil, List.append_nil]
  rw [hports, fits_iff_of_nodup _ nodup_ports_257, List.length_map, List.length_range]
  omega

/-- A list of 257 ports is refused at its last port. By then the block on user
    0 that was in force is gone. -/
theorem loadRules_portsRule_loses_uid :
    ¬ LoadsAllOrNothing rootMaps [portsRule] := by
  intro h
  rcases h with ⟨hok, _⟩ | ⟨_, _, _, huids⟩
  · have hfit := (loadRules_ok_iff _ _).mp hok
    exact not_fits_portsRule hfit.2.1
  · -- The ports do not fit, so the load never got to the users.
    have hleft := (holdsLeftovers_loadRules rootMaps [portsRule]).2.2 0
    have hprior : rootMaps.uids.get? 0 = some 1 := by decide
    rw [if_neg (fun h => not_fits_portsRule h.2), huids 0, hprior] at hleft
    exact absurd hleft (by simp only [reduceCtorEq, not_false_eq_true])

end VectorGuard
