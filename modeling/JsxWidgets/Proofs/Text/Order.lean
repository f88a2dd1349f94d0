import JsxWidgets.Text.Order
import Mathlib.Data.Finset.Sort
import Mathlib.Data.String.Basic

/-!
# Sets of texts in order

A set of texts is kept as a sorted list. That list is determined by its elements: it is what
`Finset.sort` makes of the set of them (`Text.sortedSet_eq_sort`). So whatever is said about the
texts that are listed may be said of a finite set, without an order.

The other way to list distinct elements is by their first occurrences. They are collected with those
that have been seen at hand, and the laws speak of what is added to these.

How often each text occurs is kept in a table, in which every text counts once (`Text.total_tally`).
-/

namespace JsxWidgets.Text

theorem mem_insertSorted {x y : String} {set : List String} :
    y ∈ insertSorted x set ↔ y = x ∨ y ∈ set := by
  induction set with
  | nil => rw [insertSorted, List.mem_singleton, or_iff_left List.not_mem_nil]
  | cons z rest ih =>
    rw [insertSorted]
    split
    · exact List.mem_cons
    · split
      · next heq =>
        subst heq
        rw [List.mem_cons, or_self_left]
      · rw [List.mem_cons, ih, List.mem_cons, or_left_comm]

theorem insertSorted_sorted {x : String} {set : List String} (h : set.Pairwise (· < ·)) :
    (insertSorted x set).Pairwise (· < ·) := by
  induction set with
  | nil => exact List.pairwise_singleton _ _
  | cons y rest ih =>
    obtain ⟨hy, hrest⟩ := List.pairwise_cons.mp h
    rw [insertSorted]
    split
    · next hlt =>
      refine List.pairwise_cons.mpr ⟨fun z hz => ?_, h⟩
      rcases List.mem_cons.mp hz with rfl | hz
      · exact hlt
      · exact hlt.trans (hy z hz)
    · split
      · exact h
      · -- The new text goes somewhere behind the first one.
        next hnot hne =>
        have hgt : y < x := lt_of_le_of_ne (not_lt.mp hnot) (Ne.symm hne)
        refine List.pairwise_cons.mpr ⟨fun z hz => ?_, ih hrest⟩
        rcases mem_insertSorted.mp hz with rfl | hz
        · exact hgt
        · exact hy z hz

/-- Texts added to a sorted list. -/
theorem foldl_insertSorted (xs set : List String) (h : set.Pairwise (· < ·)) :
    (xs.foldl (fun set x => insertSorted x set) set).Pairwise (· < ·) ∧
      ∀ y, y ∈ xs.foldl (fun set x => insertSorted x set) set ↔ y ∈ set ∨ y ∈ xs := by
  induction xs generalizing set with
  | nil => exact ⟨h, fun y => (or_iff_left List.not_mem_nil).symm⟩
  | cons x xs ih =>
    obtain ⟨hsorted, hmem⟩ := ih (insertSorted x set) (insertSorted_sorted h)
    refine ⟨hsorted, fun y => ?_⟩
    rw [List.foldl_cons, hmem, mem_insertSorted, List.mem_cons, or_assoc, or_left_comm]

theorem sortedSet_sorted (xs : List String) : (sortedSet xs).Pairwise (· < ·) :=
  (foldl_insertSorted xs [] .nil).1

theorem mem_sortedSet {xs : List String} {y : String} : y ∈ sortedSet xs ↔ y ∈ xs := by
  rw [sortedSet, (foldl_insertSorted xs [] .nil).2, or_iff_right List.not_mem_nil]

theorem sortedSet_append_self (xs : List String) : sortedSet (xs ++ xs) = sortedSet xs := by
  refine (sortedSet_sorted _).eq_of_mem_iff (sortedSet_sorted xs) fun x => ?_
  rw [mem_sortedSet, mem_sortedSet, List.mem_append, or_self]

/-- **A set of texts lists the finite set of its elements in order.** -/
theorem sortedSet_eq_sort (xs : List String) : sortedSet xs = xs.toFinset.sort (· ≤ ·) := by
  refine (sortedSet_sorted xs).eq_of_mem_iff (xs.toFinset.sortedLT_sort).pairwise fun y => ?_
  rw [mem_sortedSet, Finset.mem_sort, List.mem_toFinset]

/-! ### First occurrences -/

section

variable {α : Type} [BEq α] [LawfulBEq α]

/-- Elements added to distinct ones that have been seen. -/
theorem foldl_addUnseen (xs seen : List α) (h : seen.Nodup) :
    (xs.foldl (fun seen x => if seen.contains x then seen else seen ++ [x]) seen).Nodup ∧
      ∀ y, y ∈ xs.foldl (fun seen x => if seen.contains x then seen else seen ++ [x]) seen
        ↔ y ∈ seen ∨ y ∈ xs := by
  -- what was seen grows at each step, hence it is general
  induction xs generalizing seen with
  | nil => exact ⟨h, fun y => (or_iff_left List.not_mem_nil).symm⟩
  | cons x xs ih =>
    rw [List.foldl_cons]
    split
    · next hseen =>
      obtain ⟨hnodup, hmem⟩ := ih seen h
      refine ⟨hnodup, fun y => ?_⟩
      rw [hmem, List.mem_cons]
      constructor
      · exact Or.imp_right Or.inr
      · rintro (hy | rfl | hy)
        · exact Or.inl hy
        · exact Or.inl (List.contains_iff_mem.mp hseen)
        · exact Or.inr hy
    · next hunseen =>
      have hx : x ∉ seen := fun hx => hunseen (List.contains_iff_mem.mpr hx)
      obtain ⟨hnodup, hmem⟩ := ih (seen ++ [x]) (List.nodup_append.mpr
        ⟨h, List.nodup_singleton x, fun y hy z hz hyz =>
          hx (List.mem_singleton.mp hz ▸ hyz ▸ hy)⟩)
      refine ⟨hnodup, fun y => ?_⟩
      rw [hmem, List.mem_append, List.mem_singleton, List.mem_cons, or_assoc]

theorem nodup_firstOccurrences (xs : List α) : (firstOccurrences xs).Nodup :=
  (foldl_addUnseen xs [] .nil).1

theorem mem_firstOccurrences {xs : List α} {y : α} : y ∈ firstOccurrences xs ↔ y ∈ xs := by
  rw [firstOccurrences, (foldl_addUnseen xs [] .nil).2, or_iff_right List.not_mem_nil]

/-- An element behind others is a first occurrence unless it is among them. -/
theorem firstOccurrences_concat (xs : List α) (x : α) :
    firstOccurrences (xs ++ [x])
      = if xs.contains x then firstOccurrences xs else firstOccurrences xs ++ [x] := by
  rw [firstOccurrences, List.foldl_append, List.foldl_cons, List.foldl_nil, ← firstOccurrences]
  simp only [List.contains_iff_mem, mem_firstOccurrences]

/-- What is kept of the first occurrences are the first occurrences of what is kept. -/
theorem filter_firstOccurrences (keeps : α → Bool) (xs : List α) :
    (firstOccurrences xs).filter keeps = firstOccurrences (xs.filter keeps) := by
  -- from the end, for whether the last one is new depends on those before it
  induction xs using List.reverseRecOn with
  | nil => rfl
  | append_singleton xs x ih =>
    rw [firstOccurrences_concat, List.filter_append]
    by_cases hkeeps : keeps x = true
    · have hcontains : (xs.filter keeps).contains x = xs.contains x := by
        simp [hkeeps]
      rw [List.filter_cons_of_pos hkeeps, List.filter_nil, firstOccurrences_concat, hcontains, ← ih]
      split
      · rfl
      · rw [List.filter_append, List.filter_cons_of_pos hkeeps, List.filter_nil]
    · rw [List.filter_cons_of_neg hkeeps, List.filter_nil, List.append_nil, ← ih]
      split
      · rfl
      · rw [List.filter_append, List.filter_cons_of_neg hkeeps, List.filter_nil, List.append_nil]

/-- **The first occurrences stand in the order in which they occur.** -/
theorem pairwise_idxOf_firstOccurrences (xs : List α) :
    (firstOccurrences xs).Pairwise fun x y => xs.idxOf x < xs.idxOf y := by
  induction xs using List.reverseRecOn with
  | nil => exact .nil
  | append_singleton xs x ih =>
    -- adding one at the end moves no first position
    have hbefore : (firstOccurrences xs).Pairwise
        fun y z => (xs ++ [x]).idxOf y < (xs ++ [x]).idxOf z := by
      refine ih.imp_of_mem fun hy hz hlt => ?_
      rwa [List.idxOf_append_of_mem (mem_firstOccurrences.mp hy),
        List.idxOf_append_of_mem (mem_firstOccurrences.mp hz)]
    rw [firstOccurrences_concat]
    split
    · exact hbefore
    · next hnew =>
      rw [List.contains_iff_mem] at hnew
      refine List.pairwise_append.mpr ⟨hbefore, List.pairwise_singleton _ _, fun y hy z hz => ?_⟩
      obtain rfl := List.mem_singleton.mp hz
      have hmem := mem_firstOccurrences.mp hy
      rw [List.idxOf_append_of_mem hmem, List.idxOf_append_of_notMem hnew]
      exact Nat.lt_of_lt_of_le (List.idxOf_lt_length_iff.mpr hmem) (Nat.le_add_right _ _)

/-- **The distinct elements of a list in the order of their first occurrence.** -/
structure ListsFirsts (xs ys : List α) : Prop where
  /-- All elements are listed. -/
  mem_iff : ∀ y, y ∈ ys ↔ y ∈ xs
  /-- They stand in the order in which they come first, and so each of them once. -/
  order : ys.Pairwise fun y z => xs.idxOf y < xs.idxOf z

theorem listsFirsts_firstOccurrences (xs : List α) : ListsFirsts xs (firstOccurrences xs) where
  mem_iff _ := mem_firstOccurrences
  order := pairwise_idxOf_firstOccurrences xs

/-- **The first occurrences in two lists** are those in the first one, and those in the second one
that are not in the first. -/
theorem firstOccurrences_append (xs ys : List α) :
    firstOccurrences (xs ++ ys)
      = firstOccurrences xs ++ (firstOccurrences ys).filter fun y => !xs.contains y := by
  induction ys using List.reverseRecOn with
  | nil => exact (congrArg firstOccurrences (List.append_nil xs)).trans (List.append_nil _).symm
  | append_singleton ys y ih =>
    have hcontains : (xs ++ ys).contains y = (xs.contains y || ys.contains y) :=
      List.contains_append
    rw [← List.append_assoc, firstOccurrences_concat, firstOccurrences_concat, ih, hcontains]
    -- the last one is new if it stands in neither list
    cases hys : ys.contains y with
    | true => rw [Bool.or_true, if_pos rfl, if_pos rfl]
    | false =>
      rw [Bool.or_false, if_neg Bool.false_ne_true, List.filter_append]
      cases hxs : xs.contains y with
      | true =>
        have hold : [y].filter (fun y => !xs.contains y) = [] :=
          List.filter_cons_of_neg (by rw [hxs]; exact Bool.false_ne_true)
        rw [if_pos rfl, hold, List.append_nil]
      | false =>
        have hnew : [y].filter (fun y => !xs.contains y) = [y] :=
          List.filter_cons_of_pos (by rw [hxs]; rfl)
        rw [if_neg Bool.false_ne_true, hnew, List.append_assoc]

theorem firstOccurrences_prefix (xs ys : List α) :
    firstOccurrences xs <+: firstOccurrences (xs ++ ys) := by
  rw [firstOccurrences_append]
  exact List.prefix_append _ _

/-- Elements that occur already add nothing. -/
theorem firstOccurrences_append_self (xs : List α) :
    firstOccurrences (xs ++ xs) = firstOccurrences xs := by
  have hold : (firstOccurrences xs).filter (fun x => !xs.contains x) = [] := by
    refine List.filter_eq_nil_iff.mpr fun x hx hnot => ?_
    rw [List.contains_iff_mem.mpr (mem_firstOccurrences.mp hx)] at hnot
    exact Bool.false_ne_true hnot
  rw [firstOccurrences_append, hold, List.append_nil]

end

/-! ### Counts -/

/-- The sum of the counts in a table. -/
def total : List (String × Nat) → Nat
  | [] => 0
  | (_, n) :: rest => n + total rest

theorem total_update (key : String) (table : List (String × Nat)) :
    total (update key (fun n => n.getD 0 + 1) table) = total table + 1 := by
  induction table with
  | nil => rfl
  | cons entry rest ih =>
    obtain ⟨k, v⟩ := entry
    rw [update]
    split
    · -- A new entry in front.
      exact Nat.add_comm 1 _
    · split
      · -- The entry of the text.
        change v + 1 + total rest = v + total rest + 1
        omega
      · rw [total, total, ih, Nat.add_assoc]

/-- **Every text counts once.** -/
theorem total_tally (xs : List String) : total (tally xs) = xs.length := by
  have hfold : ∀ table, total (xs.foldl
      (fun table x => update x (fun n => n.getD 0 + 1) table) table) = total table + xs.length := by
    induction xs with
    | nil => intro table; rfl
    | cons x xs ih =>
      intro table
      rw [List.foldl_cons, ih, total_update, List.length_cons]
      omega
  rw [tally, hfold]
  exact Nat.zero_add _

end JsxWidgets.Text
