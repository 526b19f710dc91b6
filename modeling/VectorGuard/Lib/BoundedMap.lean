import Mathlib.Data.List.AList

/-!
# Bounded Maps

Finite maps with a fixed capacity, the shape of a kernel hash map created with
a maximum number of entries. An association list without duplicate keys
carries the entries, and the bound on their number is a field, so a map that
has overflowed cannot be built.

Only insertion can fail, and it fails exactly when the key is new and the map
is full: overwriting an existing key always has room. Filling a map from a
list of keys with an early exit on the first failure therefore stops at the
first key that is new once the map is full, and what it leaves behind is
described by `fresh`, the distinct keys of the list that the map did not hold.
`insertAll_ok_iff` says when the whole list went in and `mem_insertAll` says
which keys are there in either case.

The keys of a map are enumerated in the order of its entries, which is
arbitrary. Nothing below depends on it: `removeAll_keys` empties a map by
removing what an enumeration returned, in whatever order that was.

## Main definitions

* `BoundedMap`: A finite map with at most `cap` entries.
* `insert`: Insertion, refused for a new key in a full map.
* `insertAll`: Inserting a list of keys up to the first refusal.
* `removeAll`: Removing a list of keys.
* `fresh`: The distinct keys of a list that a map does not hold.

## Theorems

* `insert_eq_none_iff`: Insertion is refused exactly for a new key in a full
  map.
* `removeAll_keys`: Removing every enumerated key leaves the empty map.
* `insertAll_ok_iff`: The whole list goes in exactly when its fresh keys fit.
* `mem_insertAll`: Which keys are held after a possibly refused list.
* `get?_insertAll_empty`: What a map filled from empty holds.
-/

/-- A finite map with at most `cap` entries. -/
structure BoundedMap (K V : Type*) (cap : Nat) where
  table : AList (fun _ : K => V)
  fits : table.keys.length ≤ cap

namespace BoundedMap

variable {K V : Type*} {cap : Nat}

/-- The map with no entries. -/
def empty : BoundedMap K V cap :=
  ⟨∅, by simp only [AList.keys_empty, List.length_nil, Nat.zero_le]⟩

/-- The keys in the order an enumeration returns them. -/
def keys (m : BoundedMap K V cap) : List K :=
  m.table.keys

/-- The number of entries. -/
def size (m : BoundedMap K V cap) : Nat :=
  m.keys.length

instance : Membership K (BoundedMap K V cap) :=
  ⟨fun m k => k ∈ m.table⟩

theorem mem_keys (m : BoundedMap K V cap) (k : K) : k ∈ m.keys ↔ k ∈ m := AList.mem_keys.symm

theorem size_le (m : BoundedMap K V cap) : m.size ≤ cap := m.fits

theorem notMem_empty (k : K) : k ∉ (empty : BoundedMap K V cap) := AList.notMem_empty k

theorem size_empty : (empty : BoundedMap K V cap).size = 0 := rfl

theorem eq_empty_of_keys (m : BoundedMap K V cap) (h : m.keys = []) : m = empty := by
  cases m with
  | mk table fits =>
      have hentries : table.entries = [] := List.map_eq_nil_iff.mp h
      have htable : table = ∅ := AList.ext hentries
      subst htable
      rfl

variable [DecidableEq K]

instance (m : BoundedMap K V cap) (k : K) : Decidable (k ∈ m) :=
  inferInstanceAs (Decidable (k ∈ m.table))

/-- The value held for a key. -/
def get? (m : BoundedMap K V cap) (k : K) : Option V :=
  m.table.lookup k

theorem isSome_get? (m : BoundedMap K V cap) (k : K) : (m.get? k).isSome = true ↔ k ∈ m :=
  AList.lookup_isSome

theorem get?_eq_none (m : BoundedMap K V cap) (k : K) : m.get? k = none ↔ k ∉ m :=
  AList.lookup_eq_none

/-- Remove a key; removing an absent one changes nothing. -/
def remove (m : BoundedMap K V cap) (k : K) : BoundedMap K V cap :=
  ⟨m.table.erase k, by
    rw [AList.keys_erase]
    exact Nat.le_trans List.length_erase_le m.fits⟩

theorem mem_remove (m : BoundedMap K V cap) (a k : K) : a ∈ m.remove k ↔ a ≠ k ∧ a ∈ m :=
  AList.mem_erase

/-- Remove a list of keys, in order. -/
def removeAll (m : BoundedMap K V cap) (ks : List K) : BoundedMap K V cap :=
  ks.foldl remove m

theorem mem_removeAll (ks : List K) (m : BoundedMap K V cap) (a : K) :
    a ∈ m.removeAll ks ↔ a ∉ ks ∧ a ∈ m := by
  induction ks generalizing m with
  | nil => simp only [removeAll, List.foldl_nil, List.not_mem_nil, not_false_eq_true, true_and]
  | cons k ks ih =>
      have hcons : m.removeAll (k :: ks) = (m.remove k).removeAll ks := rfl
      rw [hcons, ih, mem_remove, List.mem_cons, not_or]
      exact ⟨fun ⟨hks, hk, hm⟩ => ⟨⟨hk, hks⟩, hm⟩, fun ⟨⟨hk, hks⟩, hm⟩ => ⟨hks, hk, hm⟩⟩

/-- Removing every key an enumeration returned leaves the empty map. -/
theorem removeAll_keys (m : BoundedMap K V cap) : m.removeAll m.keys = empty := by
  refine eq_empty_of_keys _ (List.eq_nil_iff_forall_not_mem.mpr (fun a ha => ?_))
  rw [mem_keys, mem_removeAll, mem_keys] at ha
  exact ha.1 ha.2

theorem length_keys_insert (m : BoundedMap K V cap) (k : K) (v : V)
    (h : k ∈ m ∨ m.size < cap) : (m.table.insert k v).keys.length ≤ cap := by
  rw [AList.keys_insert, List.length_cons]
  rcases h with hk | hlt
  · have hk' : k ∈ m.table.keys := hk
    rw [List.length_erase_of_mem hk']
    have hpos := List.length_pos_of_mem hk'
    have hfits := m.fits
    omega
  · have hle : (m.table.keys.erase k).length ≤ m.table.keys.length := List.length_erase_le
    have hsize : m.table.keys.length < cap := hlt
    omega

/-- Insert or overwrite an entry. A new key is refused when the map is full. -/
def insert (m : BoundedMap K V cap) (k : K) (v : V) : Option (BoundedMap K V cap) :=
  if h : k ∈ m ∨ m.size < cap then
    some ⟨m.table.insert k v, length_keys_insert m k v h⟩
  else none

theorem insert_eq_none_iff (m : BoundedMap K V cap) (k : K) (v : V) :
    m.insert k v = none ↔ k ∉ m ∧ m.size = cap := by
  have hle := m.size_le
  rw [insert, dite_eq_right_iff]
  constructor
  · intro h
    by_contra hc
    have hroom : k ∈ m ∨ m.size < cap := by
      by_cases hk : k ∈ m
      · exact Or.inl hk
      · exact Or.inr (lt_of_le_of_ne hle (fun he => hc ⟨hk, he⟩))
    exact absurd (h hroom) (by simp only [reduceCtorEq, not_false_eq_true])
  · intro h hroom
    rcases h with ⟨hk, hfull⟩
    rcases hroom with hmem | hlt
    · exact absurd hmem hk
    · omega

theorem insert_spec (m m' : BoundedMap K V cap) (k : K) (v : V) (h : m.insert k v = some m') :
    (∀ a, a ∈ m' ↔ a = k ∨ a ∈ m) ∧
      m'.get? k = some v ∧ (∀ a, a ≠ k → m'.get? a = m.get? a) ∧
      m'.size = if k ∈ m then m.size else m.size + 1 := by
  rw [insert, Option.dite_none_right_eq_some] at h
  rcases h with ⟨_, hm⟩
  rw [Option.some.injEq] at hm
  subst hm
  refine ⟨fun a => AList.mem_insert m.table, AList.lookup_insert m.table,
    fun a ha => AList.lookup_insert_ne ha, ?_⟩
  have hsize : (m.table.insert k v).keys.length = (m.table.keys.erase k).length + 1 := by
    rw [AList.keys_insert, List.length_cons]
  by_cases hk : k ∈ m
  · have hk' : k ∈ m.table.keys := hk
    have hpos := List.length_pos_of_mem hk'
    rw [if_pos hk]
    change (m.table.insert k v).keys.length = m.table.keys.length
    rw [hsize, List.length_erase_of_mem hk']
    omega
  · rw [if_neg hk]
    change (m.table.insert k v).keys.length = m.table.keys.length + 1
    rw [hsize, List.erase_of_not_mem hk]

/-- Overwriting a key changes no membership. -/
theorem mem_insert_of_mem (m m' : BoundedMap K V cap) (k : K) (v : V) (h : m.insert k v = some m')
    (hk : k ∈ m) (a : K) : a ∈ m' ↔ a ∈ m := by
  rw [(insert_spec m m' k v h).1 a]
  exact ⟨fun hor => hor.elim (fun heq => heq ▸ hk) id, Or.inr⟩

/-- Insert every key of the list with the same value, stopping at the first
    refusal. The flag says whether the whole list went in. -/
def insertAll (v : V) (m : BoundedMap K V cap) : List K → BoundedMap K V cap × Bool
  | [] => (m, true)
  | k :: ks => match m.insert k v with
    | some m' => insertAll v m' ks
    | none => (m, false)

/-- The distinct keys of a list that the map does not hold, in order. -/
def fresh (m : BoundedMap K V cap) (ks : List K) : List K :=
  (ks.filter (fun k => decide (k ∉ m))).eraseDups

theorem mem_fresh (m : BoundedMap K V cap) (ks : List K) (a : K) :
    a ∈ m.fresh ks ↔ a ∈ ks ∧ a ∉ m := by
  rw [fresh, List.mem_eraseDups, List.mem_filter, decide_eq_true_iff]

theorem fresh_empty (ks : List K) : (empty : BoundedMap K V cap).fresh ks = ks.eraseDups := by
  have hall : ks.filter (fun k => decide (k ∉ (empty : BoundedMap K V cap))) = ks :=
    List.filter_eq_self.mpr (fun k _ => decide_eq_true (notMem_empty k))
  rw [fresh, hall]

theorem fresh_cons_of_mem (m : BoundedMap K V cap) (k : K) (ks : List K) (h : k ∈ m) :
    m.fresh (k :: ks) = m.fresh ks := by
  rw [fresh, List.filter_cons_of_neg (by simp only [h, not_true, decide_false,
    Bool.false_eq_true, not_false_eq_true]), fresh]

/-- A key held before and after is fresh in neither map, so overwriting one
    leaves the fresh keys as they were. -/
theorem fresh_congr (m m' : BoundedMap K V cap) (ks : List K) (h : ∀ a, a ∈ m' ↔ a ∈ m) :
    m'.fresh ks = m.fresh ks := by
  simp only [fresh, h]

theorem fresh_cons_of_notMem (m m' : BoundedMap K V cap) (k : K) (ks : List K) (h : k ∉ m)
    (hm' : ∀ a, a ∈ m' ↔ a = k ∨ a ∈ m) : m.fresh (k :: ks) = k :: m'.fresh ks := by
  -- Dropping the later copies of the key and dropping what the new map holds come
  -- to the same.
  have hfilter : (ks.filter (fun a => decide (a ∉ m))).filter (fun b => !b == k)
      = ks.filter (fun a => decide (a ∉ m')) := by
    rw [List.filter_filter]
    refine List.filter_congr (fun a _ => ?_)
    by_cases hak : a = k
    · simp only [hak, beq_self_eq_true, Bool.not_true, Bool.false_and, hm', true_or, not_true,
        decide_false]
    · simp only [hm', hak, false_or, beq_eq_false_iff_ne.mpr hak, Bool.not_false, Bool.true_and]
  rw [fresh, List.filter_cons_of_pos (by simpa only [decide_eq_true_iff] using h),
    List.eraseDups_cons, hfilter, fresh]

/-- The whole list goes in exactly when its fresh keys fit beside what the map
    already holds. -/
theorem insertAll_ok_iff (v : V) (ks : List K) (m : BoundedMap K V cap) :
    (insertAll v m ks).2 = true ↔ m.size + (m.fresh ks).length ≤ cap := by
  induction ks generalizing m with
  | nil =>
      have hle := m.size_le
      simp only [insertAll, fresh, List.filter_nil, List.eraseDups_nil, List.length_nil,
        Nat.add_zero, hle]
  | cons k ks ih =>
      cases hins : m.insert k v with
      | none =>
          rcases (insert_eq_none_iff m k v).mp hins with ⟨hk, hfull⟩
          -- The map is full, and the refused key is a fresh one without room.
          have hpos := List.length_pos_of_mem ((mem_fresh m (k :: ks) k).mpr
            ⟨List.mem_cons_self, hk⟩)
          simp only [insertAll, hins, Bool.false_eq_true, false_iff, not_le]
          omega
      | some m' =>
          rcases insert_spec m m' k v hins with ⟨hmem, _, _, hsize⟩
          simp only [insertAll, hins]
          rw [ih m', hsize]
          by_cases hk : k ∈ m
          · have hsame := mem_insert_of_mem m m' k v hins hk
            rw [if_pos hk, fresh_cons_of_mem m k ks hk, fresh_congr m m' ks hsame]
          · -- The key moves from the fresh ones into the map, and the sum stays.
            rw [if_neg hk, fresh_cons_of_notMem m m' k ks hk hmem, List.length_cons]
            omega

/-- What is held afterwards: the old keys, and of the fresh ones as many as
    there was room for. -/
theorem mem_insertAll (v : V) (ks : List K) (m : BoundedMap K V cap) (a : K) :
    a ∈ (insertAll v m ks).1 ↔ a ∈ m ∨ a ∈ (m.fresh ks).take (cap - m.size) := by
  induction ks generalizing m with
  | nil =>
      simp only [insertAll, fresh, List.filter_nil, List.eraseDups_nil, List.take_nil,
        List.not_mem_nil, or_false]
  | cons k ks ih =>
      cases hins : m.insert k v with
      | none =>
          rcases (insert_eq_none_iff m k v).mp hins with ⟨_, hfull⟩
          simp only [insertAll, hins, hfull, Nat.sub_self, List.take_zero, List.not_mem_nil,
            or_false]
      | some m' =>
          rcases insert_spec m m' k v hins with ⟨hmem, _, _, hsize⟩
          have hle' := m'.size_le
          simp only [insertAll, hins]
          rw [ih m', hmem a, hsize]
          by_cases hk : k ∈ m
          · have hsame := mem_insert_of_mem m m' k v hins hk
            rw [if_pos hk, fresh_cons_of_mem m k ks hk, fresh_congr m m' ks hsame]
            exact or_congr ⟨fun h => h.elim (fun e => e ▸ hk) id, Or.inr⟩ Iff.rfl
          · -- The key is the first of the fresh ones, and takes the first of the room.
            rw [if_neg hk] at hsize
            rw [if_neg hk, fresh_cons_of_notMem m m' k ks hk hmem,
              show cap - m.size = (cap - (m.size + 1)) + 1 by omega, List.take_succ_cons,
              List.mem_cons, or_assoc]
            exact or_left_comm

/-- Every entry an all-equal fill leaves behind carries the value it wrote or
    one that was there before. -/
theorem get?_insertAll (v : V) (ks : List K) (m : BoundedMap K V cap)
    (h : ∀ a w, m.get? a = some w → w = v) (a : K) (w : V)
    (hw : (insertAll v m ks).1.get? a = some w) : w = v := by
  induction ks generalizing m with
  | nil => exact h a w hw
  | cons k ks ih =>
      cases hins : m.insert k v with
      | none =>
          simp only [insertAll, hins] at hw
          exact h a w hw
      | some m' =>
          simp only [insertAll, hins] at hw
          rcases insert_spec m m' k v hins with ⟨_, hself, hother, _⟩
          refine ih m' (fun b u hb => ?_) hw
          by_cases hbk : b = k
          · rw [hbk, hself, Option.some.injEq] at hb
            exact hb.symm
          · rw [hother b hbk] at hb
            exact h b u hb

/-- What a map filled from empty holds: the first distinct keys of the list,
    as many as fit. -/
theorem get?_insertAll_empty (v : V) (ks : List K) (a : K) :
    (insertAll v (empty : BoundedMap K V cap) ks).1.get? a
      = if a ∈ ks.eraseDups.take cap then some v else none := by
  have hmem := mem_insertAll v ks (empty : BoundedMap K V cap) a
  rw [fresh_empty, size_empty, Nat.sub_zero] at hmem
  by_cases ha : a ∈ ks.eraseDups.take cap
  · rw [if_pos ha]
    rcases Option.isSome_iff_exists.mp ((isSome_get? _ a).mpr (hmem.mpr (Or.inr ha))) with ⟨w, hw⟩
    have hwv := get?_insertAll v ks empty
      (fun b u hb => absurd hb (by rw [(get?_eq_none _ b).mpr (notMem_empty b)]; simp)) a w hw
    rw [hw, hwv]
  · rw [if_neg ha, get?_eq_none, hmem]
    exact fun h => h.elim (notMem_empty a) ha

end BoundedMap
