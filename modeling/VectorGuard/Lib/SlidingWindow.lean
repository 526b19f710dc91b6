import Mathlib.Data.List.Basic

/-!
# Sliding Windows

A window over a history of timed entries that is kept incrementally, by dropping
entries from its front, against its definition, the entries of the history that
are recent enough.

Entries are evicted only when something is added, so between two additions a
window holds more than its definition. `Represents` therefore says what a window
is good for: at every time from now on, its recent entries are those of the whole
history.

A window may be trimmed besides. `Trimming` is what a trimming has to satisfy, and
keeping the last entries up to a number, `lastN`, is one.

## Main definitions

* `recent`: The entries of a list within a width of a time.
* `Trimming`: What else may be dropped from a window.
* `Represents`: A window that stands for a history from now on.
* `LongestSuffix`: The longest suffix of a list with a property.

## Theorems

* `dropWhile_expired`: In order of time, the expired entries are at the front.
* `trimming_lastN`: Keeping a number of entries is a trimming.
* `Represents.push`: Adding an entry, evicting and trimming.
* `longestSuffix_lastN_recent`: The last recent entries as a longest suffix.
-/

namespace SlidingWindow

variable {α : Type*} (time : α → Nat) (width : Nat)

/-- The entries of a list that are at most a width old. -/
def recent (now : Nat) (l : List α) : List α :=
  l.filter (fun x => decide (now - time x ≤ width))

/-- No entry of a list is later than a time. -/
def UpTo (now : Nat) (l : List α) : Prop := ∀ x ∈ l, time x ≤ now

/-- Entries in order of time. -/
def Ordered (l : List α) : Prop := l.Pairwise (fun x y => time x ≤ time y)

/-- A way to shorten a window that adding at its end and evicting at its front
    do not interfere with. -/
structure Trimming (trim : List α → List α) : Prop where
  sub : ∀ l, (trim l).Sublist l
  append : ∀ l l', trim (trim l ++ l') = trim (l ++ l')
  recent : ∀ now l, Ordered time l → recent time width now (trim l) = trim (recent time width now l)

/-- A window that stands for a history: it holds some of its entries, in order,
    and at every later time its recent entries are those of the history, but for
    what trimming takes. -/
structure Represents (trim : List α → List α) (window history : List α) : Prop where
  sub : window.Sublist history
  recent_eq : ∀ now, UpTo time now history →
    recent time width now window = trim (recent time width now history)

/-- The last entries of a list, up to a number. -/
def lastN (n : Nat) (l : List α) : List α := l.drop (l.length - n)

variable {time width} {trim : List α → List α}

theorem UpTo.append {now : Nat} {l l' : List α} :
    UpTo time now (l ++ l') ↔ UpTo time now l ∧ UpTo time now l' :=
  List.forall_mem_append

theorem recent_append (now : Nat) (l l' : List α) :
    recent time width now (l ++ l') = recent time width now l ++ recent time width now l' :=
  List.filter_append l l'

theorem recent_sublist (now : Nat) (l : List α) : (recent time width now l).Sublist l :=
  List.filter_sublist

theorem recent_eq_self {now : Nat} {l : List α} (h : ∀ x ∈ l, now - time x ≤ width) :
    recent time width now l = l :=
  List.filter_eq_self.mpr (fun x hx => decide_eq_true (h x hx))

/-- What is recent later is recent now. -/
theorem recent_recent {now now' : Nat} (hle : now ≤ now') (l : List α) :
    recent time width now' (recent time width now l) = recent time width now' l := by
  unfold recent
  rw [List.filter_filter]
  refine List.filter_congr (fun x _ => ?_)
  rw [← Bool.decide_and, decide_eq_decide]
  omega

/-- In order of time, the expired entries are at the front. -/
theorem dropWhile_expired (now : Nat) (l : List α) (hl : Ordered time l) :
    l.dropWhile (fun x => decide (width < now - time x)) = recent time width now l := by
  induction l with
  | nil => rfl
  | cons x rest ih =>
      have hx := List.pairwise_cons.mp hl
      by_cases hexp : width < now - time x
      · simp only [List.dropWhile_cons]
        rw [if_pos (decide_eq_true hexp), ih hx.2]
        unfold recent
        simp only [List.filter_cons]
        rw [if_neg (by rw [decide_eq_true_eq]; omega)]
      · -- What comes after an entry that is recent is recent too.
        simp only [List.dropWhile_cons]
        rw [if_neg (by rw [decide_eq_true_eq]; exact hexp)]
        symm
        refine recent_eq_self (fun y hy => ?_)
        have hle : time x ≤ time y := by
          rcases List.mem_cons.mp hy with heq | hmem
          · exact Nat.le_of_eq (congrArg time heq.symm)
          · exact hx.1 y hmem
        omega

/-- Without a limit nothing else is dropped. -/
theorem trimming_id : Trimming time width (id : List α → List α) where
  sub := fun l => List.Sublist.refl l
  append := fun _ _ => rfl
  recent := fun _ _ _ => rfl

theorem lastN_append_lastN (n : Nat) (l l' : List α) :
    lastN n (lastN n l ++ l') = lastN n (l ++ l') := by
  unfold lastN
  rw [← List.drop_append_of_le_length (Nat.sub_le l.length n), List.drop_drop, List.length_drop,
    List.length_append]
  congr 1
  omega

theorem lastN_of_length_le {n : Nat} {l : List α} (h : l.length ≤ n) : lastN n l = l := by
  unfold lastN
  rw [Nat.sub_eq_zero_of_le h, List.drop_zero]

theorem lastN_append_of_length_eq {n : Nat} {l l' : List α} (h : l'.length = n) :
    lastN n (l ++ l') = l' := by
  unfold lastN
  rw [List.length_append, h, Nat.add_sub_cancel, List.drop_left]

theorem length_lastN_le (n : Nat) (l : List α) : (lastN n l).length ≤ n := by
  unfold lastN
  rw [List.length_drop]
  omega

theorem lastN_map {β : Type*} (f : α → β) (n : Nat) (l : List α) :
    lastN n (l.map f) = (lastN n l).map f := by
  unfold lastN
  rw [List.length_map, List.map_drop]

theorem lastN_ne_nil {n : Nat} {l : List α} (hn : 0 < n) (hl : l ≠ []) : lastN n l ≠ [] := by
  have hpos := List.length_pos_iff.mpr hl
  unfold lastN
  rw [ne_eq, List.drop_eq_nil_iff]
  omega

theorem recent_lastN (n now : Nat) (l : List α) (hl : Ordered time l) :
    recent time width now (lastN n l) = lastN n (recent time width now l) := by
  have hsplit : recent time width now (l.take (l.length - n)) ++ recent time width now (lastN n l)
      = recent time width now l := by
    rw [← recent_append]
    unfold lastN
    rw [List.take_append_drop]
  cases hfront : recent time width now (l.take (l.length - n)) with
  | nil =>
      -- Nothing that is cut off is recent.
      rw [hfront, List.nil_append] at hsplit
      have hle : (recent time width now (lastN n l)).length ≤ n :=
        Nat.le_trans (recent_sublist now _).length_le (length_lastN_le n l)
      rw [← hsplit, lastN_of_length_le hle]
  | cons x rest =>
      -- Something that is cut off is recent, and so is all that comes after it.
      have hx : x ∈ recent time width now (l.take (l.length - n)) := hfront ▸ List.mem_cons_self
      have hxl := List.mem_of_mem_filter hx
      have hxrecent : now - time x ≤ width := by
        simpa using (List.mem_filter.mp hx).2
      rw [← List.take_append_drop (l.length - n) l] at hl
      have hall : recent time width now (lastN n l) = lastN n l := by
        refine recent_eq_self (fun y hy => ?_)
        have hle := (List.pairwise_append.mp hl).2.2 x hxl y hy
        omega
      have hlength : (lastN n l).length = n := by
        have hpos := List.length_pos_of_mem hxl
        rw [List.length_take] at hpos
        unfold lastN
        rw [List.length_drop]
        omega
      rw [hall] at hsplit ⊢
      rw [← hsplit, lastN_append_of_length_eq hlength]

/-- Keeping the last entries up to a number is a trimming. -/
theorem trimming_lastN (n : Nat) : Trimming time width (lastN n : List α → List α) where
  sub := fun l => List.drop_sublist _ l
  append := lastN_append_lastN n
  recent := recent_lastN n

theorem Represents.nil (htrim : Trimming time width trim) : Represents time width trim [] [] where
  sub := List.nil_sublist []
  recent_eq := fun _ _ => (List.sublist_nil.mp (htrim.sub [])).symm

/-- Adding an entry, evicting at its time and trimming. -/
theorem Represents.push {window history : List α} (htrim : Trimming time width trim)
    (h : Represents time width trim window history) (x : α)
    (hordered : Ordered time (history ++ [x])) :
    Represents time width trim (trim (recent time width (time x) (window ++ [x])))
      (history ++ [x]) where
  sub := ((htrim.sub _).trans (recent_sublist _ _)).trans (h.sub.append (List.Sublist.refl [x]))
  recent_eq := by
    intro now hup
    have hup := UpTo.append.mp hup
    have hwindow : Ordered time (window ++ [x]) :=
      hordered.sublist (h.sub.append (List.Sublist.refl [x]))
    rw [htrim.recent now _ (hwindow.sublist (recent_sublist _ _)),
      recent_recent (hup.2 x List.mem_cons_self), recent_append, recent_append,
      h.recent_eq now hup.1, htrim.append]

/-! ### Longest suffixes -/

/-- The longest suffix of a list with a property: every other one is a suffix of
    it. -/
structure LongestSuffix (P : List α → Prop) (s l : List α) : Prop where
  suffix : s <:+ l
  holds : P s
  longest : ∀ s', s' <:+ l → P s' → s' <:+ s

theorem lastN_suffix (n : Nat) (l : List α) : lastN n l <:+ l := List.drop_suffix _ l

/-- In order of time, the recent entries are a suffix. -/
theorem recent_suffix (now : Nat) (l : List α) (hl : Ordered time l) :
    recent time width now l <:+ l := by
  rw [← dropWhile_expired now l hl]
  exact List.dropWhile_suffix _

/-- A suffix that is short enough is one of the last entries. -/
theorem suffix_lastN {n : Nat} {s l : List α} (h : s <:+ l) (hs : s.length ≤ n) : s <:+ lastN n l := by
  refine List.suffix_of_suffix_length_le h (lastN_suffix n l) ?_
  have hle := h.length_le
  unfold lastN
  rw [List.length_drop]
  omega

/-- In order of time, the last recent entries up to a number are the longest suffix
    of as many recent entries at most. -/
theorem longestSuffix_lastN_recent (n now : Nat) (l : List α) (hl : Ordered time l) :
    LongestSuffix (fun s => s.length ≤ n ∧ ∀ x ∈ s, now - time x ≤ width)
      (lastN n (recent time width now l)) l where
  suffix := (lastN_suffix n _).trans (recent_suffix now l hl)
  holds := by
    refine ⟨length_lastN_le n _, fun x hx => ?_⟩
    have hrecent := (List.mem_filter.mp ((lastN_suffix n _).subset hx)).2
    exact of_decide_eq_true hrecent
  longest := by
    intro s hs hP
    rcases hs with ⟨front, rfl⟩
    refine suffix_lastN ?_ hP.1
    rw [recent_append, recent_eq_self hP.2]
    exact List.suffix_append _ s

end SlidingWindow
