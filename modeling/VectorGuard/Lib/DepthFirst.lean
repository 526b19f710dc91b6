import Mathlib.Logic.Relation
import Mathlib.Data.List.Nodup

/-!
# Depth-First Listing

Listing a graph depth first from some roots, every node once and with the depth
it was found at, over arbitrary nodes.

The search carries what it has listed and what it has visited. It takes fuel, one
unit for each level it descends, and gives none when that runs out. A level
visits a node that no level above it has visited, so there is fuel enough when
there is more of it than there are unvisited nodes.

`Covers` is what a search from some nodes does to its accumulator, and the one
induction. A search leaves no node behind whose children it has not visited, so
one that started with nothing lists exactly what its roots reach.

The rows alone say where each of them comes from. `InOrder` is about the rows before a
row and so is kept by appending one, which is all that a search does to them.

## Main definitions

* `visit`: The search from one node.
* `listing`: The search from all roots.
* `Covers`: What a search adds to what was visited before.
* `InOrder`: Every row is a root or below the last row one level up, in order.

## Theorems

* `covers_visit`, `covers_foldlM`: What a search does.
* `exists_visit`, `exists_foldlM`: When there is fuel enough.
* `nodup_listing`, `mem_listing_iff`: A listing holds what its roots reach, once.
* `inOrder_listing`: Where the rows of a listing come from.
-/

namespace DepthFirst

variable {α : Type*} (children : α → List α)

/-- The nodes listed so far with their depths, and the nodes visited. -/
abbrev Acc (α : Type*) := List (Nat × α) × List α

/-- List a node and what is below it, unless it was visited before. -/
def visit [DecidableEq α] : Nat → Nat → Acc α → α → Option (Acc α)
  | 0, _, _, _ => none
  | fuel + 1, depth, (found, visited), node =>
    if node ∈ visited then some (found, visited)
    else (children node).foldlM (visit fuel (depth + 1)) (found ++ [(depth, node)], node :: visited)

/-- List what is below some roots. -/
def listing [DecidableEq α] (fuel : Nat) (roots : List α) : Option (List (Nat × α)) :=
  (roots.foldlM (visit children fuel 0) ([], [])).map Prod.fst

/-- A node leads to another, child by child. -/
def Reaches : α → α → Prop := Relation.ReflTransGen (fun a b => b ∈ children a)

/-- What was visited was listed, and nothing twice. -/
structure Listed (acc : Acc α) : Prop where
  nodup : (acc.1.map Prod.snd).Nodup
  mem_iff : ∀ x, x ∈ acc.1.map Prod.snd ↔ x ∈ acc.2

theorem listed_nil : Listed (([], []) : Acc α) := ⟨List.nodup_nil, fun _ => Iff.rfl⟩

/-- Listing a node that was not visited. -/
theorem Listed.concat {found : List (Nat × α)} {seen : List α} {node : α} (depth : Nat)
    (h : Listed (found, seen)) (hnew : node ∉ seen) :
    Listed (found ++ [(depth, node)], node :: seen) where
  nodup := by
    rw [List.map_append, List.nodup_append]
    refine ⟨h.nodup, List.nodup_singleton node, ?_⟩
    intro x hx y hy heq
    rw [heq, List.mem_singleton.mp hy] at hx
    exact hnew ((h.mem_iff node).mp hx)
  mem_iff x := by
    rw [List.map_append, List.mem_append, h.mem_iff x]
    simp only [List.map_cons, List.map_nil, List.mem_cons, List.not_mem_nil, or_false]
    exact or_comm

/-- What a search from some nodes makes of its accumulator. -/
structure Covers (acc acc' : Acc α) (nodes : List α) : Prop where
  listed : Listed acc → Listed acc'
  kept : ∀ x ∈ acc.2, x ∈ acc'.2
  visited : ∀ x ∈ nodes, x ∈ acc'.2
  sound : ∀ x ∈ acc'.2, x ∈ acc.2 ∨ ∃ n ∈ nodes, Reaches children n x
  closed : ∀ x ∈ acc'.2, x ∈ acc.2 ∨ ∀ c ∈ children x, c ∈ acc'.2

variable {children} {acc acc' acc'' : Acc α}

theorem Covers.nil (acc : Acc α) : Covers children acc acc [] where
  listed := id
  kept := fun _ h => h
  visited := fun _ h => absurd h List.not_mem_nil
  sound := fun _ h => .inl h
  closed := fun _ h => .inl h

/-- A search from a node and then from others. -/
theorem Covers.cons {node : α} {rest : List α} (h : Covers children acc acc' [node])
    (h' : Covers children acc' acc'' rest) : Covers children acc acc'' (node :: rest) where
  listed := fun hlisted => h'.listed (h.listed hlisted)
  kept := fun x hx => h'.kept x (h.kept x hx)
  visited := by
    intro x hx
    rcases List.mem_cons.mp hx with rfl | hrest
    · exact h'.kept x (h.visited x List.mem_cons_self)
    · exact h'.visited x hrest
  sound := by
    intro x hx
    -- What the later searches visited was visited before, or is reached from their nodes.
    rcases h'.sound x hx with hbefore | ⟨n, hn, hreach⟩
    · rcases h.sound x hbefore with hold | ⟨n, hn, hreach⟩
      · exact .inl hold
      · exact .inr ⟨n, List.mem_cons.mpr (.inl (List.mem_singleton.mp hn)), hreach⟩
    · exact .inr ⟨n, List.mem_cons_of_mem node hn, hreach⟩
  closed := by
    intro x hx
    rcases h'.closed x hx with hbefore | hchildren
    · rcases h.closed x hbefore with hold | hchildren
      · exact .inl hold
      · exact .inr (fun c hc => h'.kept c (hchildren c hc))
    · exact .inr hchildren

/-- Searching from a visited node does nothing. -/
theorem Covers.of_visited {node : α} (h : node ∈ acc.2) : Covers children acc acc [node] where
  listed := id
  kept := fun _ hx => hx
  visited := fun x hx => by
    rw [List.mem_singleton.mp hx]
    exact h
  sound := fun _ hx => .inl hx
  closed := fun _ hx => .inl hx

/-- Searching from a node is listing it and searching from its children. -/
theorem Covers.of_children {found : List (Nat × α)} {seen : List α} {node : α} {depth : Nat}
    (hnew : node ∉ seen)
    (h : Covers children (found ++ [(depth, node)], node :: seen) acc' (children node)) :
    Covers children (found, seen) acc' [node] where
  listed := fun hlisted => h.listed (hlisted.concat depth hnew)
  kept := fun x hx => h.kept x (List.mem_cons_of_mem node hx)
  visited := by
    intro x hx
    rw [List.mem_singleton.mp hx]
    exact h.kept node List.mem_cons_self
  sound := by
    intro x hx
    rcases h.sound x hx with hbefore | ⟨c, hc, hreach⟩
    · rcases List.mem_cons.mp hbefore with rfl | hold
      · exact .inr ⟨x, List.mem_cons_self, Relation.ReflTransGen.refl⟩
      · exact .inl hold
    · -- What is reached from a child is reached from the node.
      exact .inr ⟨node, List.mem_cons_self, Relation.ReflTransGen.head hc hreach⟩
  closed := by
    intro x hx
    rcases h.closed x hx with hbefore | hchildren
    · rcases List.mem_cons.mp hbefore with rfl | hold
      · exact .inr h.visited
      · exact .inl hold
    · exact .inr hchildren

variable [DecidableEq α]

theorem covers_foldlM {fuel depth : Nat}
    (hvisit : ∀ (acc acc' : Acc α) (node : α), visit children fuel depth acc node = some acc' →
      Covers children acc acc' [node])
    (nodes : List α) (h : nodes.foldlM (visit children fuel depth) acc = some acc') :
    Covers children acc acc' nodes := by
  induction nodes generalizing acc with
  | nil =>
      rw [List.foldlM_nil] at h
      rw [Option.some.inj h]
      exact Covers.nil acc'
  | cons node rest ih =>
      rw [List.foldlM_cons] at h
      rcases Option.bind_eq_some_iff.mp h with ⟨acc₁, hnode, hrest⟩
      exact (hvisit acc acc₁ node hnode).cons (ih hrest)

theorem covers_visit (fuel depth : Nat) (acc acc' : Acc α) (node : α)
    (h : visit children fuel depth acc node = some acc') : Covers children acc acc' [node] := by
  -- By induction on the fuel, over the children at each level.
  induction fuel generalizing depth acc acc' node with
  | zero => exact absurd h (by simp [visit])
  | succ fuel ih =>
      rcases acc with ⟨found, seen⟩
      unfold visit at h
      split at h
      · next hseen =>
          rw [← Option.some.inj h]
          exact Covers.of_visited hseen
      · next hnew =>
          exact Covers.of_children hnew (covers_foldlM (ih (depth + 1)) (children node) h)

/-! ### Fuel -/

/-- The nodes of a set that are not visited. -/
def unvisited (all seen : List α) : List α := all.filter (fun x => x ∉ seen)

theorem length_unvisited_le {all seen seen' : List α} (h : ∀ x ∈ seen, x ∈ seen') :
    (unvisited all seen').length ≤ (unvisited all seen).length := by
  refine (List.monotone_filter_right all (fun x hx => ?_)).length_le
  simp only [decide_eq_true_eq] at hx ⊢
  exact fun hseen => hx (h x hseen)

theorem length_unvisited_lt {all seen : List α} {node : α} (hnode : node ∈ all)
    (hnew : node ∉ seen) : (unvisited all (node :: seen)).length < (unvisited all seen).length := by
  have hsplit : unvisited all (node :: seen) = (unvisited all seen).filter (fun x => x ≠ node) := by
    unfold unvisited
    rw [List.filter_filter]
    refine List.filter_congr (fun x _ => ?_)
    simp [List.mem_cons, not_or]
  rw [hsplit, List.length_filter_lt_length_iff_exists]
  refine ⟨node, List.mem_filter.mpr ⟨hnode, decide_eq_true hnew⟩, by simp⟩

section Fuel

variable {all : List α}

theorem exists_foldlM {fuel depth : Nat}
    (hvisit : ∀ (acc : Acc α) (node : α), node ∈ all → (unvisited all acc.2).length < fuel →
      ∃ acc', visit children fuel depth acc node = some acc')
    (nodes : List α) (hnodes : ∀ n ∈ nodes, n ∈ all) (acc : Acc α)
    (hfuel : (unvisited all acc.2).length < fuel) :
    ∃ acc', nodes.foldlM (visit children fuel depth) acc = some acc' := by
  induction nodes generalizing acc with
  | nil => exact ⟨acc, rfl⟩
  | cons node rest ih =>
      rcases hvisit acc node (hnodes node List.mem_cons_self) hfuel with ⟨acc₁, hnode⟩
      have hless : (unvisited all acc₁.2).length ≤ (unvisited all acc.2).length :=
        length_unvisited_le (covers_visit fuel depth acc acc₁ node hnode).kept
      rcases ih (fun n hn => hnodes n (List.mem_cons_of_mem node hn)) acc₁
        (Nat.lt_of_le_of_lt hless hfuel) with ⟨acc', hrest⟩
      refine ⟨acc', ?_⟩
      rw [List.foldlM_cons, hnode]
      exact hrest

/-- With more fuel than there are nodes to visit, a search ends. -/
theorem exists_visit (hall : ∀ x ∈ all, ∀ c ∈ children x, c ∈ all) (fuel depth : Nat)
    (acc : Acc α) (node : α) (hnode : node ∈ all)
    (hfuel : (unvisited all acc.2).length < fuel) :
    ∃ acc', visit children fuel depth acc node = some acc' := by
  induction fuel generalizing depth acc node with
  | zero => exact absurd hfuel (Nat.not_lt_zero _)
  | succ fuel ih =>
      rcases acc with ⟨found, seen⟩
      unfold visit
      split
      · exact ⟨_, rfl⟩
      · next hnew =>
          have hless := length_unvisited_lt hnode hnew
          refine exists_foldlM (ih (depth + 1)) (children node) (hall node hnode) _ ?_
          simp only at hfuel ⊢
          omega

theorem exists_listing (hall : ∀ x ∈ all, ∀ c ∈ children x, c ∈ all) {roots : List α}
    (hroots : ∀ r ∈ roots, r ∈ all) {fuel : Nat} (hfuel : all.length < fuel) :
    ∃ rows, listing children fuel roots = some rows := by
  have hnone : (unvisited all []).length < fuel := by
    refine Nat.lt_of_le_of_lt ?_ hfuel
    exact List.length_filter_le _ all
  rcases exists_foldlM (exists_visit hall fuel 0) roots hroots ([], []) hnone with ⟨acc, hacc⟩
  refine ⟨acc.1, ?_⟩
  unfold listing
  rw [hacc]
  rfl

end Fuel

/-! ### Listings -/

section Listing

variable {fuel : Nat} {roots : List α} {rows : List (Nat × α)}

theorem covers_listing (h : listing children fuel roots = some rows) :
    ∃ seen, Covers children ([], []) (rows, seen) roots := by
  rcases Option.map_eq_some_iff.mp h with ⟨⟨found, seen⟩, hfold, rfl⟩
  exact ⟨seen, covers_foldlM (covers_visit fuel 0) roots hfold⟩

/-- No node is listed twice. -/
theorem nodup_listing (h : listing children fuel roots = some rows) :
    (rows.map Prod.snd).Nodup := by
  rcases covers_listing h with ⟨seen, hcovers⟩
  exact (hcovers.listed listed_nil).nodup

/-- What is listed is what the roots reach. -/
theorem mem_listing_iff (h : listing children fuel roots = some rows) (x : α) :
    x ∈ rows.map Prod.snd ↔ ∃ r ∈ roots, Reaches children r x := by
  rcases covers_listing h with ⟨seen, hcovers⟩
  rw [(hcovers.listed listed_nil).mem_iff]
  constructor
  · intro hx
    exact (hcovers.sound x hx).resolve_left List.not_mem_nil
  · rintro ⟨r, hr, hreach⟩
    -- Nothing was visited at the start, so the children of what is visited are.
    induction hreach with
    | refl => exact hcovers.visited r hr
    | tail _ hchild ih => exact (hcovers.closed _ ih).resolve_left List.not_mem_nil _ hchild

end Listing

/-! ### Rows -/

section Rows

variable {depth fuel : Nat} {roots nodes done : List α} {rows new : List (Nat × α)}

/-- The node of the last row at a depth. -/
def lastAt {α : Type*} (depth : Nat) (rows : List (Nat × α)) : Option α :=
  (rows.filter (fun row => row.1 == depth)).getLast?.map Prod.snd

/-- The nodes of which a row at a depth is one, given the rows before it: the roots, or
    the children of the last row one level up. -/
def source {α : Type*} (children : α → List α) (roots : List α) (depth : Nat)
    (before : List (Nat × α)) : Option (List α) :=
  match depth with
  | 0 => some roots
  | depth + 1 => (lastAt depth before).map children

/-- A row comes from its source, and what precedes it there has a row already. -/
def Comes {α : Type*} (children : α → List α) (roots : List α) (before : List (Nat × α))
    (row : Nat × α) : Prop :=
  ∃ done rest, source children roots row.1 before = some (done ++ row.2 :: rest) ∧
    ∀ x ∈ done, x ∈ before.map Prod.snd

/-- Every row comes from its source. -/
def InOrder {α : Type*} (children : α → List α) (roots : List α) (rows : List (Nat × α)) : Prop :=
  ∀ before row after, rows = before ++ row :: after → Comes children roots before row

omit [DecidableEq α] in
theorem InOrder.concat {row : Nat × α} (h : InOrder children roots rows)
    (hrow : Comes children roots rows row) : InOrder children roots (rows ++ [row]) := by
  intro before row' after hsplit
  rcases List.eq_nil_or_concat after with rfl | ⟨front, last, rfl⟩
  · rcases List.append_inj' hsplit rfl with ⟨hbefore, hlast⟩
    rw [← hbefore, ← List.singleton_inj.mp hlast]
    exact hrow
  · rw [List.concat_eq_append, ← List.cons_append, ← List.append_assoc] at hsplit
    exact h before row' front (List.append_inj' hsplit rfl).1

omit [DecidableEq α] in
/-- Rows further down do not change the source at a depth. -/
theorem source_append (hnew : ∀ row ∈ new, depth ≤ row.1) :
    source children roots depth (rows ++ new) = source children roots depth rows := by
  cases depth with
  | zero => rfl
  | succ depth =>
      have hnone : new.filter (fun row => row.1 == depth) = [] := by
        refine List.filter_eq_nil_iff.mpr (fun row hrow heq => ?_)
        have hdeep := hnew row hrow
        rw [beq_iff_eq] at heq
        omega
      unfold source lastAt
      dsimp only
      rw [List.filter_append, hnone, List.append_nil]

omit [DecidableEq α] in
theorem source_concat_self (node : α) :
    source children roots (depth + 1) (rows ++ [(depth, node)]) = some (children node) := by
  unfold source lastAt
  dsimp only
  rw [List.filter_append, List.filter_singleton, beq_self_eq_true, cond_true,
    List.getLast?_concat]
  rfl

/-- What a search at a depth does to the rows. -/
structure Grows {α : Type*} (children : α → List α) (roots : List α) (depth : Nat)
    (rows rows' : List (Nat × α)) : Prop where
  deeper : ∃ new, rows' = rows ++ new ∧ ∀ row ∈ new, depth ≤ row.1
  inOrder : InOrder children roots rows'

omit [DecidableEq α] in
/-- A search that adds no row. -/
theorem Grows.refl (hin : InOrder children roots rows) : Grows children roots depth rows rows :=
  ⟨⟨[], (List.append_nil _).symm, fun _ hrow => absurd hrow List.not_mem_nil⟩, hin⟩

theorem grows_foldlM (done : List α)
    (hvisit : ∀ (acc acc' : Acc α) (node : α), Listed acc → InOrder children roots acc.1 →
      Comes children roots acc.1 (depth, node) → visit children fuel depth acc node = some acc' →
        Grows children roots depth acc.1 acc'.1)
    (hlisted : Listed acc) (hin : InOrder children roots acc.1)
    (hsource : source children roots depth acc.1 = some (done ++ nodes))
    (hdone : ∀ x ∈ done, x ∈ acc.2)
    (h : nodes.foldlM (visit children fuel depth) acc = some acc') :
    Grows children roots depth acc.1 acc'.1 := by
  induction nodes generalizing acc done with
  | nil =>
      rw [List.foldlM_nil] at h
      rw [← Option.some.inj h]
      exact Grows.refl hin
  | cons node rest ih =>
      rw [List.foldlM_cons] at h
      rcases Option.bind_eq_some_iff.mp h with ⟨acc₁, hnode, hrest⟩
      have hcovers := covers_visit fuel depth acc acc₁ node hnode
      have hcomes : Comes children roots acc.1 (depth, node) :=
        ⟨done, rest, hsource, fun x hx => (hlisted.mem_iff x).mpr (hdone x hx)⟩
      have hfirst := hvisit acc acc₁ node hlisted hin hcomes hnode
      rcases hfirst.deeper with ⟨new, hrows, hdeep⟩
      -- The source is what it was, and one more of its nodes is visited.
      have hthen := ih (done ++ [node]) (hcovers.listed hlisted) hfirst.inOrder
        (by rw [hrows, source_append hdeep, hsource, List.append_assoc, List.singleton_append])
        (by
          intro x hx
          rcases List.mem_append.mp hx with hx | hx
          · exact hcovers.kept x (hdone x hx)
          · exact hcovers.visited x hx)
        hrest
      rcases hthen.deeper with ⟨new', hrows', hdeep'⟩
      refine ⟨⟨new ++ new', ?_, ?_⟩, hthen.inOrder⟩
      · rw [hrows', hrows, List.append_assoc]
      · intro row hrow
        rcases List.mem_append.mp hrow with hrow | hrow
        · exact hdeep row hrow
        · exact hdeep' row hrow

theorem grows_visit (fuel depth : Nat) (acc acc' : Acc α) (node : α) (hlisted : Listed acc)
    (hin : InOrder children roots acc.1) (hcomes : Comes children roots acc.1 (depth, node))
    (h : visit children fuel depth acc node = some acc') :
    Grows children roots depth acc.1 acc'.1 := by
  induction fuel generalizing depth acc acc' node with
  | zero => exact absurd h (by simp [visit])
  | succ fuel ih =>
      rcases acc with ⟨found, seen⟩
      unfold visit at h
      split at h
      · rw [← Option.some.inj h]
        exact Grows.refl hin
      · next hnew =>
          -- The children are searched after the row of the node, one level down.
          have hbelow := grows_foldlM [] (fun acc acc' => ih (depth + 1) acc acc')
            (hlisted.concat depth hnew) (hin.concat hcomes) (source_concat_self node)
            (fun x hx => absurd hx List.not_mem_nil) h
          rcases hbelow.deeper with ⟨new, hrows, hdeep⟩
          refine ⟨⟨(depth, node) :: new, ?_, ?_⟩, hbelow.inOrder⟩
          · rw [hrows, List.append_assoc, List.singleton_append]
          · intro row hrow
            rcases List.mem_cons.mp hrow with rfl | hrow
            · exact Nat.le_refl _
            · exact Nat.le_of_succ_le (hdeep row hrow)

/-- Every row of a listing is a root, or a child of the last row one level up, and what
    precedes it among these has a row before it. -/
theorem inOrder_listing (h : listing children fuel roots = some rows) :
    InOrder children roots rows := by
  rcases Option.map_eq_some_iff.mp h with ⟨acc, hfold, rfl⟩
  have hempty : InOrder children roots ([] : List (Nat × α)) := by
    intro before row after hsplit
    exact absurd hsplit.symm (List.append_ne_nil_of_right_ne_nil _ (List.cons_ne_nil _ _))
  exact (grows_foldlM [] (fun acc acc' => grows_visit fuel 0 acc acc') listed_nil hempty
    rfl (fun x hx => absurd hx List.not_mem_nil) hfold).inOrder

end Rows

end DepthFirst
