import Mathlib.Data.List.Induction
import Mathlib.Logic.Function.Basic
import JsxWidgets.Proofs.Text.Order

/-!
# Tables keyed by texts

A table is built record by record: each record changes the entry of its own key and leaves all
others alone. So the table that a list of records builds is known without the order in which its
keys came up: it has the keys of the records in order, and at each of them what the records of this
key make of the start value, one after the other (`foldl_update`).

If a record sets the value of its key, the last one of a key wins (`LastWins`), and without repeated
keys the order of the records does not matter (`tableOf_perm`).

How often each text of a list occurs is the special case in which a record adds one (`tally_eq`).
The counts of two lists together are the sums of their counts, key by key (`tally_append`).
-/

namespace JsxWidgets.Text

variable {α ρ : Type}

/-- The table of a function on some keys. -/
def tabulate (keys : List String) (entry : String → α) : List (String × α) :=
  keys.map fun key => (key, entry key)

@[simp] theorem tabulate_nil (entry : String → α) : tabulate [] entry = [] := rfl

theorem tabulate_cons (key : String) (keys : List String) (entry : String → α) :
    tabulate (key :: keys) entry = (key, entry key) :: tabulate keys entry := rfl

theorem tabulate_congr {keys : List String} {entry entry' : String → α}
    (h : ∀ key ∈ keys, entry key = entry' key) : tabulate keys entry = tabulate keys entry' :=
  List.map_congr_left fun key hkey => congrArg (Prod.mk key) (h key hkey)

theorem map_fst_tabulate (keys : List String) (entry : String → α) :
    (tabulate keys entry).map Prod.fst = keys := by
  rw [tabulate, List.map_map]
  exact List.map_id keys

theorem lookup_tabulate (keys : List String) (entry : String → α) (key : String) :
    (tabulate keys entry).lookup key = if key ∈ keys then some (entry key) else none := by
  induction keys with
  | nil => rfl
  | cons k keys ih =>
    rw [tabulate_cons]
    by_cases hk : key = k
    · subst hk
      rw [List.lookup_cons_self, if_pos List.mem_cons_self]
    · have hmem : key ∈ k :: keys ↔ key ∈ keys := by rw [List.mem_cons, or_iff_right hk]
      rw [List.lookup_cons, beq_false_of_ne hk, if_congr hmem rfl rfl]
      exact ih

/-! ### Single changes -/

/-- A change makes an entry for its key, and for no other. -/
theorem map_fst_update (key : String) (change : Option α → α) (table : List (String × α)) :
    (update key change table).map Prod.fst = insertSorted key (table.map Prod.fst) := by
  induction table with
  | nil => rfl
  | cons entry table ih =>
    obtain ⟨k, v⟩ := entry
    rw [update, List.map_cons, insertSorted]
    split
    · rfl
    · split
      next => rfl
      next => rw [List.map_cons, ih]

/-- What stands in front of all keys is no key. -/
theorem lookup_eq_none_of_lt {table : List (String × α)} {key : String}
    (h : ∀ k ∈ table.map Prod.fst, key < k) : table.lookup key = none := by
  rw [List.lookup_eq_none_iff]
  intro entry hentry
  exact bne_iff_ne.mpr (ne_of_lt (h entry.1 (List.mem_map_of_mem hentry)))

/-- What stands in front of the first key is no key of a table in order. -/
theorem lookup_cons_eq_none_of_lt {table : List (String × α)} {key k : String} (hlt : key < k)
    (hk : ∀ k' ∈ table.map Prod.fst, k < k') (v : α) : ((k, v) :: table).lookup key = none := by
  refine lookup_eq_none_of_lt fun k' hk' => ?_
  rcases List.mem_cons.mp hk' with rfl | hlater
  · exact hlt
  · exact hlt.trans (hk k' hlater)

/-- **A change is seen at its key alone.** -/
theorem lookup_update {table : List (String × α)} (h : (table.map Prod.fst).Pairwise (· < ·))
    (key : String) (change : Option α → α) (x : String) :
    (update key change table).lookup x
      = if x = key then some (change (table.lookup key)) else table.lookup x := by
  induction table with
  | nil =>
    rw [update, List.lookup_cons]
    by_cases hx : x = key
    · rw [if_pos hx, hx, beq_self_eq_true]
      rfl
    · rw [if_neg hx, beq_false_of_ne hx]
  | cons entry table ih =>
    obtain ⟨k, v⟩ := entry
    obtain ⟨hk, hrest⟩ := List.pairwise_cons.mp h
    rw [update]
    split
    next hlt =>
      -- The key is new, and all others are behind it.
      rw [lookup_cons_eq_none_of_lt hlt hk, List.lookup_cons]
      by_cases hx : x = key
      · rw [if_pos hx, hx, beq_self_eq_true]
      · rw [if_neg hx, beq_false_of_ne hx]
    next =>
      split
      next heq =>
        subst heq
        rw [List.lookup_cons, List.lookup_cons_self]
        by_cases hx : x = key
        · rw [if_pos hx, hx, beq_self_eq_true]
        · rw [if_neg hx, beq_false_of_ne hx, List.lookup_cons, beq_false_of_ne hx]
      next hne =>
        rw [List.lookup_cons, ih hrest, List.lookup_cons, beq_false_of_ne hne, List.lookup_cons]
        by_cases hx : x = k
        · have hother : x ≠ key := fun h => hne (h.symm.trans hx)
          rw [beq_iff_eq.mpr hx]
          exact (if_neg hother).symm
        · rw [beq_false_of_ne hx]

/-- **A table is told by its keys in order and by what is found at each of them.** -/
theorem ext_lookup {s t : List (String × α)} (hs : (s.map Prod.fst).Pairwise (· < ·))
    (ht : (t.map Prod.fst).Pairwise (· < ·)) (h : ∀ key, s.lookup key = t.lookup key) : s = t := by
  induction s generalizing t with
  | nil =>
    cases t with
    | nil => rfl
    | cons entry t =>
      have hfirst := h entry.1
      rw [List.lookup_cons_self] at hfirst
      cases hfirst
  | cons entry s ih =>
    obtain ⟨k, v⟩ := entry
    obtain ⟨hk, hrest⟩ := List.pairwise_cons.mp hs
    have hfound := h k
    rw [List.lookup_cons_self] at hfound
    cases t with
    | nil => cases hfound
    | cons entry' t =>
      obtain ⟨k', v'⟩ := entry'
      obtain ⟨hk', hrest'⟩ := List.pairwise_cons.mp ht
      have hfound' := h k'
      rw [List.lookup_cons_self] at hfound'
      -- A first key that the other table does not start with would be no key of it.
      rcases lt_trichotomy k k' with hlt | rfl | hlt
      · rw [lookup_cons_eq_none_of_lt hlt hk'] at hfound
        cases hfound
      · rw [List.lookup_cons_self] at hfound
        have hbehind : s = t := by
          refine ih hrest hrest' fun key => ?_
          have hkey := h key
          by_cases hne : key = k
          · rw [hne, lookup_eq_none_of_lt hk, lookup_eq_none_of_lt hk']
          · rwa [List.lookup_cons, List.lookup_cons, beq_false_of_ne hne] at hkey
        rw [hbehind, Option.some.inj hfound]
      · rw [lookup_cons_eq_none_of_lt hlt hk] at hfound'
        cases hfound'

/-! ### Entries in any order -/

/-- **What entries make of a table**: every key occurs once, in order, and has the value of the last
entry of that key. -/
structure LastWins (entries table : List (String × α)) : Prop where
  /-- The keys are in order, each once. -/
  sorted : (table.map Prod.fst).Pairwise (· < ·)
  /-- The last entry of a key counts. -/
  lookup : ∀ key, table.lookup key = entries.reverse.lookup key

namespace LastWins

variable {entries table : List (String × α)}

theorem nil : LastWins ([] : List (String × α)) [] := ⟨List.Pairwise.nil, fun _ => rfl⟩

/-- One more entry sets the value of its key. -/
theorem concat (h : LastWins entries table) (key : String) (v : α) :
    LastWins (entries ++ [(key, v)]) (update key (fun _ => v) table) := by
  constructor
  · rw [map_fst_update]
    exact insertSorted_sorted h.sorted
  · intro x
    rw [lookup_update h.sorted, List.reverse_append, h.lookup]
    change _ = ((key, v) :: entries.reverse).lookup x
    rw [List.lookup_cons]
    by_cases hx : x = key
    · rw [if_pos hx, beq_iff_eq.mpr hx]
    · rw [if_neg hx, beq_false_of_ne hx]

/-- There is one table of some entries. -/
theorem unique {table' : List (String × α)} (h : LastWins entries table)
    (h' : LastWins entries table') : table = table' :=
  ext_lookup h.sorted h'.sorted fun key => (h.lookup key).trans (h'.lookup key).symm

end LastWins

/-- The table of some entries, which set its values one after the other. -/
def tableOf (entries : List (String × α)) : List (String × α) :=
  entries.foldl (fun table entry => update entry.1 (fun _ => entry.2) table) []

theorem lastWins_tableOf (entries : List (String × α)) : LastWins entries (tableOf entries) := by
  induction entries using List.reverseRecOn with
  | nil => exact .nil
  | append_singleton entries entry ih =>
    rw [tableOf, List.foldl_append]
    exact ih.concat entry.1 entry.2

/-- Without repeated keys a value is found exactly if its entry is there. -/
theorem lookup_eq_some_iff {table : List (String × α)} (h : (table.map Prod.fst).Nodup)
    {key : String} {v : α} : table.lookup key = some v ↔ (key, v) ∈ table := by
  induction table with
  | nil => simp
  | cons entry table ih =>
    obtain ⟨k, w⟩ := entry
    obtain ⟨hk, hrest⟩ := List.nodup_cons.mp h
    rw [List.lookup_cons, List.mem_cons, Prod.mk.injEq]
    by_cases hkey : key = k
    · subst hkey
      have hnot : (key, v) ∉ table := fun hmem => hk (List.mem_map.mpr ⟨_, hmem, rfl⟩)
      rw [beq_self_eq_true, or_iff_left hnot]
      simp [eq_comm]
    · rw [beq_false_of_ne hkey, or_iff_right fun h => hkey h.1]
      exact ih hrest

/-- Without repeated keys the order does not matter for what is found. -/
theorem lookup_perm {s t : List (String × α)} (hperm : s.Perm t) (h : (s.map Prod.fst).Nodup)
    (key : String) : s.lookup key = t.lookup key := by
  have ht : (t.map Prod.fst).Nodup := (hperm.map Prod.fst).nodup h
  refine Option.ext fun v => ?_
  rw [lookup_eq_some_iff h, lookup_eq_some_iff ht, hperm.mem_iff]

/-- **A table is what its entries make of it**, in any order. -/
theorem tableOf_perm {entries table : List (String × α)} (hperm : table.Perm entries)
    (hsorted : (table.map Prod.fst).Pairwise (· < ·)) : tableOf entries = table := by
  have hnodup : (table.map Prod.fst).Nodup := hsorted.imp ne_of_lt
  refine (lastWins_tableOf entries).unique ⟨hsorted, fun key => ?_⟩
  exact lookup_perm (hperm.trans entries.reverse_perm.symm) hnodup key

/-! ### Records of a key -/

/-- An entry that is changed at a key that is not listed does not show. -/
theorem tabulate_update_of_notMem {keys : List String} {key : String} (h : key ∉ keys)
    (entry : String → α) (value : α) :
    tabulate keys (Function.update entry key value) = tabulate keys entry :=
  tabulate_congr fun _ hk => Function.update_of_ne (ne_of_mem_of_not_mem hk h) value entry

/-- **A record changes the entry of its key**, or makes one from the start value. -/
theorem update_tabulate {keys : List String} (hkeys : keys.Pairwise (· < ·)) {key : String}
    {init : α} {entry : String → α} (hinit : key ∉ keys → entry key = init) (step : α → α) :
    update key (fun v => step (v.getD init)) (tabulate keys entry)
      = tabulate (insertSorted key keys) (Function.update entry key (step (entry key))) := by
  induction keys with
  | nil =>
    rw [insertSorted, tabulate_cons, Function.update_self, hinit List.not_mem_nil]
    rfl
  | cons k keys ih =>
    obtain ⟨hk, hrest⟩ := List.pairwise_cons.mp hkeys
    rw [tabulate_cons, update, insertSorted]
    split
    · -- In front of all keys, so none of them is the new one.
      next hlt =>
      have hnew : key ∉ k :: keys := by
        intro hmem
        rcases List.mem_cons.mp hmem with rfl | hmem
        · exact lt_irrefl _ hlt
        · exact lt_irrefl _ (hlt.trans (hk key hmem))
      rw [tabulate_cons, Function.update_self, tabulate_update_of_notMem hnew, hinit hnew,
        tabulate_cons]
      rfl
    · split
      · next heq =>
        subst heq
        have hlater : key ∉ keys := fun hmem => lt_irrefl _ (hk key hmem)
        rw [tabulate_cons, Function.update_self, tabulate_update_of_notMem hlater]
        rfl
      · -- The entry stands later, or a new one goes there.
        next _ hne =>
        have hinit' : key ∉ keys → entry key = init := fun hmem =>
          hinit fun hcons => (List.mem_cons.mp hcons).elim hne hmem
        rw [tabulate_cons, Function.update_of_ne (Ne.symm hne), ih hrest hinit']

theorem sortedSet_concat (xs : List String) (x : String) :
    sortedSet (xs ++ [x]) = insertSorted x (sortedSet xs) := by
  rw [sortedSet, List.foldl_append]
  rfl

/-- **A table that is built record by record** has at each key what the records of this key make of
the start value. -/
theorem foldl_update (key : ρ → String) (step : α → ρ → α) (init : α) (rs : List ρ) :
    rs.foldl (fun table r => update (key r) (fun v => step (v.getD init) r) table) []
      = tabulate (sortedSet (rs.map key)) fun k =>
          (rs.filter fun r => key r = k).foldl step init := by
  induction rs using List.reverseRecOn with
  | nil => rfl
  | append_singleton rs r ih =>
    -- A key without records still has the start value.
    have hinit : key r ∉ sortedSet (rs.map key) →
        (rs.filter fun r' => key r' = key r).foldl step init = init := by
      intro hnew
      have hnone : (rs.filter fun r' => key r' = key r) = [] :=
        List.filter_eq_nil_iff.mpr fun r' hr' heq =>
          hnew (mem_sortedSet.mpr (List.mem_map.mpr ⟨r', hr', of_decide_eq_true heq⟩))
      rw [hnone, List.foldl_nil]
    rw [List.foldl_append, List.foldl_cons, List.foldl_nil, ih,
      update_tabulate (sortedSet_sorted _) hinit fun v => step v r, List.map_append, List.map_cons,
      List.map_nil, sortedSet_concat]
    refine tabulate_congr fun k _ => ?_
    rw [List.filter_append, List.foldl_append]
    by_cases hk : k = key r
    · subst hk
      rw [Function.update_self, List.filter_cons_of_pos (by rw [decide_eq_true rfl])]
      rfl
    · rw [Function.update_of_ne hk,
        List.filter_cons_of_neg fun heq => hk (of_decide_eq_true heq).symm]
      rfl

/-! ### Counts -/

/-- **The counts of texts**: each text that occurs, with how often it does. -/
theorem tally_eq (xs : List String) : tally xs = tabulate (sortedSet xs) fun x => xs.count x := by
  refine (foldl_update id (fun n _ => n + 1) 0 xs).trans ?_
  rw [List.map_id]
  refine tabulate_congr fun x _ => ?_
  rw [List.foldl_add_const, Nat.zero_add, Nat.one_mul, List.count_eq_length_filter]
  rfl

/-- The count of a text in a table; a text without an entry does not occur. -/
def countOf (table : List (String × Nat)) (key : String) : Nat := (table.lookup key).getD 0

theorem countOf_tally (xs : List String) (x : String) : countOf (tally xs) x = xs.count x := by
  rw [countOf, tally_eq, lookup_tabulate]
  split
  · rfl
  · next hnot => exact (List.count_eq_zero.mpr fun h => hnot (mem_sortedSet.mpr h)).symm

theorem map_fst_tally (xs : List String) : (tally xs).map Prod.fst = sortedSet xs := by
  rw [tally_eq, map_fst_tabulate]

/-- A text has an entry if it occurs. -/
theorem lookup_tally (xs : List String) (x : String) :
    (tally xs).lookup x = if xs.count x = 0 then none else some (xs.count x) := by
  have hnone : x ∉ sortedSet xs ↔ xs.count x = 0 := by rw [mem_sortedSet, List.count_eq_zero]
  rw [tally_eq, lookup_tabulate, ← ite_not]
  exact if_congr hnone rfl rfl

theorem sortedSet_filter (p : String → Bool) (xs : List String) :
    sortedSet (xs.filter p) = (sortedSet xs).filter p := by
  refine (sortedSet_sorted _).eq_of_mem_iff ((sortedSet_sorted xs).filter p) fun x => ?_
  rw [mem_sortedSet, List.mem_filter, List.mem_filter, mem_sortedSet]

/-- **The counts of some of the texts** are some of the counts. -/
theorem tally_filter (p : String → Bool) (xs : List String) :
    tally (xs.filter p) = (tally xs).filter fun entry => p entry.1 := by
  have hcount : ∀ x ∈ (sortedSet xs).filter p, (xs.filter p).count x = xs.count x := fun x hx =>
    List.count_filter (List.mem_filter.mp hx).2
  rw [tally_eq, tally_eq, sortedSet_filter, tabulate_congr hcount, tabulate, tabulate,
    List.filter_map]
  rfl

/-- The texts of two sets. -/
def unite (xs ys : List String) : List String := sortedSet (xs ++ ys)

/-- The table of the sums of the counts in two tables, key by key. -/
def addCounts (s t : List (String × Nat)) : List (String × Nat) :=
  tabulate (unite (s.map Prod.fst) (t.map Prod.fst)) fun key => countOf s key + countOf t key

theorem sortedSet_append (xs ys : List String) :
    sortedSet (xs ++ ys) = unite (sortedSet xs) (sortedSet ys) := by
  rw [unite, sortedSet_eq_sort, sortedSet_eq_sort]
  congr 1
  ext x
  simp only [List.mem_toFinset, List.mem_append, mem_sortedSet]

/-- **Counts add up** over lists that are joined. -/
theorem tally_append (xs ys : List String) :
    tally (xs ++ ys) = addCounts (tally xs) (tally ys) := by
  rw [tally_eq, addCounts, map_fst_tally, map_fst_tally, sortedSet_append]
  refine tabulate_congr fun x _ => ?_
  rw [countOf_tally, countOf_tally, List.count_append]

end JsxWidgets.Text
