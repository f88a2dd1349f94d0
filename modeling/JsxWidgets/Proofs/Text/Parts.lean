import Mathlib.Data.List.Basic
import Mathlib.Data.List.Infix
import JsxWidgets.Text.Segment

/-!
# Where a piece of a text occurs

A known beginning, a known end and a known piece of a text are a prefix, a suffix and an infix of
its characters (`Text.startsWith_iff`, `Text.endsWith_iff`, `Text.contains_iff`).

In a text that is put together from others such a piece may also stand across a seam. It does not if
the characters at the seam are none of the piece, and then it is in one of the texts
(`Text.pair_infix_intercalate`), or at the end of the last one or the start of the first one.
-/

namespace JsxWidgets.Text

/-! ### Beginnings, ends and pieces -/

theorem dropFront?_eq_some_iff {front chars rest : List Char} :
    dropFront? front chars = some rest ↔ chars = front ++ rest := by
  induction front generalizing chars with
  | nil => simp [dropFront?]
  | cons p front ih =>
    cases chars with
    | nil => simp [dropFront?]
    | cons c chars =>
      rw [dropFront?]
      split
      next heq => rw [ih, heq, List.cons_append, List.cons_inj_right]
      next hne => simp [Ne.symm hne]

theorem dropStart?_eq_some_iff {start s rest : String} :
    dropStart? start s = some rest ↔ s = start ++ rest := by
  rw [dropStart?, Option.map_eq_some_iff]
  constructor
  · rintro ⟨chars, hchars, rfl⟩
    rw [← String.toList_inj, String.toList_append, String.toList_ofList]
    exact dropFront?_eq_some_iff.mp hchars
  · rintro rfl
    refine ⟨rest.toList, dropFront?_eq_some_iff.mpr String.toList_append, String.ofList_toList⟩

theorem dropEnd?_eq_some_iff {ending s rest : String} :
    dropEnd? ending s = some rest ↔ s = rest ++ ending := by
  rw [dropEnd?, Option.map_eq_some_iff]
  constructor
  · rintro ⟨chars, hchars, rfl⟩
    have hreversed := congrArg List.reverse (dropFront?_eq_some_iff.mp hchars)
    rw [List.reverse_reverse, List.reverse_append, List.reverse_reverse] at hreversed
    rw [← String.toList_inj, String.toList_append, String.toList_ofList, hreversed]
  · rintro rfl
    refine ⟨rest.toList.reverse, dropFront?_eq_some_iff.mpr ?_, ?_⟩
    · rw [String.toList_append, List.reverse_append]
    · rw [List.reverse_reverse, String.ofList_toList]

theorem isSome_dropFront?_iff {front chars : List Char} :
    (dropFront? front chars).isSome = true ↔ front <+: chars := by
  rw [Option.isSome_iff_exists]
  exact exists_congr fun rest => dropFront?_eq_some_iff.trans eq_comm

theorem startsWith_iff {start s : String} :
    startsWith start s = true ↔ start.toList <+: s.toList :=
  isSome_dropFront?_iff

theorem endsWith_iff {ending s : String} :
    endsWith ending s = true ↔ ending.toList <:+ s.toList :=
  isSome_dropFront?_iff.trans List.reverse_prefix

theorem occursIn_iff {piece chars : List Char} :
    occursIn piece chars = true ↔ piece <:+: chars := by
  induction chars with
  | nil => rw [occursIn, List.isEmpty_iff, List.infix_nil]
  | cons c chars ih =>
    rw [occursIn, Bool.or_eq_true, isSome_dropFront?_iff, ih, List.infix_cons_iff]

theorem contains_iff {piece s : String} :
    contains piece s = true ↔ piece.toList <:+: s.toList :=
  occursIn_iff

theorem contains_point {s : String} : contains "." s = true ↔ '.' ∈ s.toList :=
  contains_iff.trans (List.singleton_infix_iff _ _)

/-! ### Seams -/

section Seams

variable {α : Type} {a b : α}

/-- Two characters that do not stand across a seam stand in front of it or behind it. -/
theorem pair_infix_append {xs ys : List α} (h : xs.getLast? ≠ some a ∨ ys.head? ≠ some b) :
    [a, b] <:+: xs ++ ys ↔ [a, b] <:+: xs ∨ [a, b] <:+: ys := by
  rw [List.infix_append_iff]
  refine ⟨?_, Or.imp_right Or.inl⟩
  rintro (hxs | hys | ⟨left, right, heq, hleft, hright⟩)
  · exact Or.inl hxs
  · exact Or.inr hys
  -- The pair is cut in two. Only the cut between its characters is one across the seam.
  · match left with
    | [] =>
      rw [List.nil_append] at heq
      exact Or.inr (heq ▸ hright.isInfix)
    | [_] =>
      rw [List.singleton_append, List.cons.injEq] at heq
      obtain ⟨front, rfl⟩ := hleft
      rw [← heq.2] at hright
      obtain ⟨behind, rfl⟩ := hright
      rw [List.getLast?_concat, heq.1] at h
      exact absurd h (by simp)
    | _ :: _ :: rest =>
      rw [List.cons_append, List.cons_append, List.cons.injEq, List.cons.injEq] at heq
      have hrest : rest = [] := (List.append_eq_nil_iff.mp heq.2.2.symm).1
      rw [← heq.1, ← heq.2.1, hrest] at hleft
      exact Or.inl hleft.isInfix

/-- Two characters at the end of a text stand at the end of its last part. -/
theorem pair_suffix_append {xs ys : List α} (h : xs.getLast? ≠ some a) (hys : ys ≠ []) :
    [a, b] <:+ xs ++ ys ↔ [a, b] <:+ ys := by
  refine ⟨fun hsuffix => ?_, List.suffix_append_of_suffix⟩
  rcases List.suffix_or_suffix_of_suffix hsuffix (List.suffix_append xs ys) with hin | hover
  · exact hin
  -- The last part is the end of the pair, so it has at most two characters.
  · match ys with
    | [] => exact absurd rfl hys
    | [c] =>
      obtain ⟨front, heq⟩ := hsuffix
      rw [List.append_cons front a [b]] at heq
      have hxs : front ++ [a] = xs := (List.append_inj' heq rfl).1
      rw [← hxs, List.getLast?_concat] at h
      exact absurd rfl h
    | c :: d :: rest =>
      rw [hover.eq_of_length_le (by simp)]

/-- What a text starts with is the start of its first part, up to the seam. -/
theorem prefix_append_iff {p xs ys : List α} (h : ∀ y ∈ ys.head?, y ∉ p) :
    p <+: xs ++ ys ↔ p <+: xs := by
  refine ⟨fun hbegins => ?_, List.prefix_append_of_prefix⟩
  rcases List.prefix_or_prefix_of_prefix hbegins (List.prefix_append xs ys) with hin | hover
  · exact hin
  · obtain ⟨rest, rfl⟩ := hover
    rw [List.prefix_append_right_inj] at hbegins
    cases rest with
    | nil => rw [List.append_nil]
    | cons y rest =>
      -- The start would go on behind the seam, with a character that it does not hold.
      obtain ⟨behind, rfl⟩ := hbegins
      exact absurd (List.mem_append_right xs List.mem_cons_self) (h y rfl)

/-- What stands in front of the first `a` is known by what a text starts with. -/
theorem concat_prefix_iff {xs ys zs : List α} (hxs : a ∉ xs) (hys : a ∉ ys) :
    xs ++ [a] <+: ys ++ a :: zs ↔ xs = ys := by
  -- Both are read side by side, and neither can come to its `a` before the other does.
  induction xs generalizing ys with
  | nil =>
    cases ys with
    | nil => simp
    | cons y ys =>
      have hne : a ≠ y := fun heq => hys (heq ▸ List.mem_cons_self)
      simp [hne]
  | cons x xs ih =>
    rw [List.mem_cons, not_or] at hxs
    cases ys with
    | nil => simp [Ne.symm hxs.1]
    | cons y ys =>
      rw [List.mem_cons, not_or] at hys
      rw [List.cons_append, List.cons_append, List.cons_prefix_cons, List.cons.injEq,
        ih hxs.2 hys.2]

/-! ### Texts with a separator between them -/

variable {sep : List α} {texts : List (List α)}

theorem pair_infix_intercalate (hsep : a ∉ sep) (h : ∀ t ∈ texts, t.getLast? ≠ some a) :
    [a, b] <:+: sep.intercalate texts ↔ ∃ t ∈ texts, [a, b] <:+: t := by
  have hnot : ¬[a, b] <:+: sep := fun hin => hsep (hin.subset List.mem_cons_self)
  have hlast : sep.getLast? ≠ some a := fun hlast => hsep (List.mem_of_getLast? hlast)
  induction texts with
  | nil => simp [List.intercalate]
  | cons t texts ih =>
    obtain ⟨ht, htexts⟩ := List.forall_mem_cons.mp h
    replace ih := ih htexts
    cases texts with
    | nil => simp
    | cons u texts =>
      -- There are two seams, one on either side of the separator.
      rw [List.intercalate_cons_cons, List.append_assoc, pair_infix_append (Or.inl ht),
        pair_infix_append (Or.inl hlast), or_iff_right hnot, List.exists_mem_cons_iff]
      exact or_congr_right ih

variable (sep)

/-- The first text stands in front, and a separator behind it if there are more. -/
theorem intercalate_cons_eq (t : List α) (texts : List (List α)) :
    ∃ rest, sep.intercalate (t :: texts) = t ++ rest ∧ (rest = [] ∨ sep <+: rest) := by
  cases texts with
  | nil => exact ⟨[], by simp, Or.inl rfl⟩
  | cons u texts =>
    refine ⟨sep ++ sep.intercalate (u :: texts), ?_, Or.inr (List.prefix_append _ _)⟩
    rw [List.intercalate_cons_cons, List.append_assoc]

/-- The last text stands at the end, and a separator in front of it if there are more. -/
theorem exists_intercalate_eq_append {t : List α} (h : texts.getLast? = some t) :
    ∃ front, sep.intercalate texts = front ++ t ∧ (front = [] ∨ sep <:+ front) := by
  induction texts with
  | nil => cases h
  | cons u texts ih =>
    -- the separator stands only in front of a further text
    cases texts with
    | nil =>
      rw [List.getLast?_singleton, Option.some.injEq] at h
      exact ⟨[], by simp [h], Or.inl rfl⟩
    | cons v texts =>
      rw [List.getLast?_cons_cons] at h
      obtain ⟨front, heq, hfront⟩ := ih h
      refine ⟨u ++ sep ++ front, ?_, Or.inr ?_⟩
      · rw [List.intercalate_cons_cons, heq, List.append_assoc _ front]
      · rcases hfront with rfl | hfront
        · rw [List.append_nil]
          exact List.suffix_append u sep
        · exact List.suffix_append_of_suffix hfront

end Seams

end JsxWidgets.Text
