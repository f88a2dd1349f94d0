import Mathlib.Data.List.Chain
import JsxWidgets.Proofs.Text.Words

/-!
# The canonical form of a text

The words of a text and single spaces between them are its canonical form. What the blanks around
and between the words are makes no difference, and nothing else is lost
(`Text.canonical_normalize`).

All of it comes from the way in which a text is cut at its blanks. There is one such cut only
(`Text.CutAtBlanks.runs_eq`), the cut of two texts with blanks in between is that of the one and
then that of the other (`Text.CutAtBlanks.append`), and words with single spaces between them are
cut into these words (`Text.cutAtBlanks_intercalate`). So the canonical form has the words of the
text (`Text.sameWords_normalize`).

The canonical forms are exactly the tidy texts, which have no other blanks than single spaces
between other characters (`Text.normalize_eq_self_iff`). So each of them is its own canonical form.
-/

namespace JsxWidgets.Text

/-! ### There is one cut -/

theorem runs_append_of_not_blank {word : List Char} (hword : ∀ c ∈ word, isBlank c = false)
    (rest run : List Char) : runs (word ++ rest) run = runs rest (word.reverse ++ run) := by
  induction word generalizing run with
  | nil => rfl
  | cons c word ih =>
    obtain ⟨hc, hword⟩ := List.forall_mem_cons.mp hword
    rw [List.cons_append, runs_cons_of_not_blank _ run hc, ih hword, List.reverse_cons,
      List.append_assoc, List.singleton_append]

/-- A run ends where a blank follows, or nothing at all. -/
theorem runs_of_ne_nil {rest run : List Char} (hrun : run ≠ [])
    (hrest : ∀ c ∈ rest.head?, isBlank c = true) : runs rest run = run.reverse :: runs rest [] := by
  obtain ⟨d, run, rfl⟩ := List.exists_cons_of_ne_nil hrun
  cases rest with
  | nil => rfl
  | cons c rest =>
    have hc : isBlank c = true := hrest c rfl
    rw [runs_cons_cons_of_blank rest run hc d, runs_cons_nil_of_blank rest hc]

/-- **A text can be cut at its blanks in one way only.** -/
theorem CutAtBlanks.runs_eq {chars : List Char} {cut : List (List Char)}
    (h : CutAtBlanks chars cut) : runs chars [] = cut := by
  induction h with
  | done => rfl
  | blank hc _ ih => rw [runs_cons_nil_of_blank _ hc, ih]
  | word hne hword hrest _ ih =>
    rw [runs_append_of_not_blank hword, List.append_nil,
      runs_of_ne_nil (List.reverse_ne_nil_iff.mpr hne) hrest, List.reverse_reverse, ih]

theorem words_eq_of_cutAtBlanks {s : String} {cut : List (List Char)}
    (h : CutAtBlanks s.toList cut) : words s = cut.map String.ofList := by
  rw [words, h.runs_eq]

/-- Two texts have the same words between their blanks. -/
def SameWords (s t : String) : Prop := ∃ cut, CutAtBlanks s.toList cut ∧ CutAtBlanks t.toList cut

theorem sameWords_iff {s t : String} : SameWords s t ↔ words s = words t := by
  constructor
  · rintro ⟨cut, hs, ht⟩
    rw [words_eq_of_cutAtBlanks hs, words_eq_of_cutAtBlanks ht]
  · intro h
    exact ⟨_, cutAtBlanks_words s, h ▸ cutAtBlanks_words t⟩

/-! ### Cuts of texts that are put together -/

/-- A text without blanks is one word. -/
theorem CutAtBlanks.single {word : List Char} (hne : word ≠ [])
    (hword : ∀ c ∈ word, isBlank c = false) : CutAtBlanks word [word] := by
  have h : CutAtBlanks (word ++ []) [word] := .word hne hword (fun _ hc => nomatch hc) .done
  rwa [List.append_nil] at h

theorem CutAtBlanks.blanks {gap chars : List Char} {cut : List (List Char)}
    (hgap : ∀ c ∈ gap, isBlank c = true) (h : CutAtBlanks chars cut) :
    CutAtBlanks (gap ++ chars) cut := by
  -- The blanks are passed over one by one.
  induction gap with
  | nil => exact h
  | cons c gap ih =>
    obtain ⟨hc, hgap⟩ := List.forall_mem_cons.mp hgap
    exact .blank hc (ih hgap)

/-- **Two texts with blanks in between** have the words of the one and then those of the other. -/
theorem CutAtBlanks.append {chars gap chars' : List Char} {cut cut' : List (List Char)}
    (hne : gap ≠ []) (hgap : ∀ c ∈ gap, isBlank c = true) (h : CutAtBlanks chars cut)
    (h' : CutAtBlanks chars' cut') : CutAtBlanks (chars ++ (gap ++ chars')) (cut ++ cut') := by
  -- The first text is gone through word by word; what comes behind it is cut already.
  induction h with
  | done => exact (h'.blanks hgap :)
  | blank hc _ ih => exact .blank hc ih
  | @word _ rest _ hword hnot hrest _ ih =>
    rw [List.append_assoc, List.cons_append]
    refine .word hword hnot (fun c hc => ?_) ih
    -- Behind the last word the blanks in between follow.
    cases rest with
    | nil =>
      obtain ⟨d, gap, rfl⟩ := List.exists_cons_of_ne_nil hne
      obtain rfl := Option.some.inj hc
      exact hgap d List.mem_cons_self
    | cons d rest => exact hrest c hc

/-- Words with single spaces between them are cut into these words. -/
theorem cutAtBlanks_intercalate {cut : List (List Char)} (hne : ∀ word ∈ cut, word ≠ [])
    (hnot : ∀ word ∈ cut, ∀ c ∈ word, isBlank c = false) :
    CutAtBlanks ([' '].intercalate cut) cut := by
  induction cut with
  | nil => exact .done
  | cons word cut ih =>
    obtain ⟨hword, hne⟩ := List.forall_mem_cons.mp hne
    obtain ⟨hwordnot, hnot⟩ := List.forall_mem_cons.mp hnot
    have hfirst : CutAtBlanks word [word] := .single hword hwordnot
    cases cut with
    | nil => rwa [List.intercalate_singleton]
    | cons other cut =>
      rw [List.intercalate_cons_cons, List.append_assoc]
      have hspace : ∀ c ∈ [' '], isBlank c = true := List.forall_mem_singleton.mpr rfl
      exact hfirst.append (List.cons_ne_nil _ _) hspace (ih hne hnot)

/-! ### Words of the canonical form -/

theorem toList_normalize (s : String) :
    (normalize s).toList = [' '].intercalate ((words s).map String.toList) := by
  rw [normalize, String.toList_intercalate]
  rfl

/-- The canonical form is cut into the words of the text. -/
theorem cutAtBlanks_normalize (s : String) :
    CutAtBlanks (normalize s).toList ((words s).map String.toList) := by
  have h := cutAtBlanks_words s
  rw [toList_normalize]
  exact cutAtBlanks_intercalate h.ne_nil h.not_blank

/-- **The canonical form has the words of the text.** -/
theorem sameWords_normalize (s : String) : SameWords (normalize s) s :=
  ⟨_, cutAtBlanks_normalize s, cutAtBlanks_words s⟩

theorem normalize_eq_iff {s t : String} : normalize s = normalize t ↔ SameWords s t := by
  rw [sameWords_iff]
  constructor
  · intro h
    calc
      words s = words (normalize s) := (sameWords_iff.mp (sameWords_normalize s)).symm
      _ = words (normalize t) := by rw [h]
      _ = words t := sameWords_iff.mp (sameWords_normalize t)
  · intro h
    rw [normalize, normalize, h]

theorem normalize_eq_empty_iff {s : String} : normalize s = "" ↔ words s = [] := by
  rw [words_eq_nil_iff, ← isEmpty_normalize, String.isEmpty_iff]

theorem words_append {a gap b : String} (hne : gap ≠ "")
    (hgap : ∀ c ∈ gap.toList, isBlank c = true) : words (a ++ gap ++ b) = words a ++ words b := by
  have hchars : gap.toList ≠ [] := mt String.toList_eq_nil_iff.mp hne
  have hcut : CutAtBlanks (a ++ gap ++ b).toList
      ((words a).map String.toList ++ (words b).map String.toList) := by
    rw [String.toList_append, String.toList_append, List.append_assoc]
    exact (cutAtBlanks_words a).append hchars hgap (cutAtBlanks_words b)
  rw [words_eq_of_cutAtBlanks hcut, ← List.map_append, List.map_map]
  exact (List.map_congr_left fun _ _ => String.ofList_toList).trans (List.map_id _)

/-- Two texts with a space in between, or the one that is not empty. -/
def spaced (s t : String) : String := if s = "" then t else if t = "" then s else s ++ " " ++ t

/-- **Two texts with blanks in between** have their canonical forms with a space in between. -/
theorem normalize_append {a gap b : String} (hne : gap ≠ "")
    (hgap : ∀ c ∈ gap.toList, isBlank c = true) :
    normalize (a ++ gap ++ b) = spaced (normalize a) (normalize b) := by
  have hwords : words (a ++ gap ++ b) = words a ++ words b := words_append hne hgap
  rw [spaced]
  split
  next ha =>
    rw [normalize, hwords, normalize_eq_empty_iff.mp ha, List.nil_append, normalize]
  next ha =>
    split
    next hb =>
      rw [normalize, hwords, normalize_eq_empty_iff.mp hb, List.append_nil, normalize]
    next hb =>
      -- Only where there are words on both sides a space is put in between.
      rw [normalize_eq_empty_iff] at ha hb
      rw [normalize, hwords, String.intercalate_append_of_ne_nil ha hb, normalize, normalize]

/-! ### Characters of the canonical form -/

/-- The characters of a text that are no blanks, in order. -/
def nonBlanks (s : String) : List Char := s.toList.filter fun c => !isBlank c

theorem CutAtBlanks.filter_eq {chars : List Char} {cut : List (List Char)}
    (h : CutAtBlanks chars cut) : (chars.filter fun c => !isBlank c) = cut.flatten := by
  induction h with
  | done => rfl
  | blank hc _ ih =>
    rw [List.filter_cons_of_neg (by simp [hc]), ih]
  | word _ hword _ _ ih =>
    rw [List.filter_append, ih, List.flatten_cons]
    congr 1
    exact List.filter_eq_self.mpr fun c hc => by simp [hword c hc]

/-- **Texts with the same words** differ in nothing but blanks. -/
theorem SameWords.nonBlanks_eq {s t : String} (h : SameWords s t) : nonBlanks s = nonBlanks t := by
  obtain ⟨cut, hs, ht⟩ := h
  rw [nonBlanks, nonBlanks, hs.filter_eq, ht.filter_eq]

/-- Characters in which no blank is wasted: each one is a space, with another character behind. -/
structure IsSparing (chars : List Char) : Prop where
  /-- The last one is no blank. -/
  last : ∀ c ∈ chars.getLast?, isBlank c = false
  /-- Of two neighbours one is no blank. -/
  single : chars.IsChain fun c d => isBlank c = false ∨ isBlank d = false
  /-- A blank is a space. -/
  space : ∀ c ∈ chars, isBlank c = true → c = ' '

/-- **Tidy characters**: their only blanks are single spaces between others. -/
structure IsTidy (chars : List Char) : Prop extends IsSparing chars where
  /-- The first one is no blank. -/
  first : ∀ c ∈ chars.head?, isBlank c = false

theorem IsSparing.of_append {xs ys : List Char} (h : IsSparing (xs ++ ys)) : IsSparing ys where
  last c hc := h.last c (List.mem_getLast?_append_of_mem_getLast? hc)
  single := h.single.right_of_append
  space c hc := h.space c (List.mem_append_right xs hc)

theorem IsTidy.of_not_blank {chars : List Char} (h : ∀ c ∈ chars, isBlank c = false) :
    IsTidy chars where
  first c hc := h c (List.mem_of_head? hc)
  last c hc := h c (List.mem_of_getLast? hc)
  single := (List.pairwise_of_forall_mem_list fun c hc _ _ => Or.inl (h c hc)).isChain
  space c hc hblank := absurd hblank (by simp [h c hc])

theorem IsTidy.spaced {xs ys : List Char} (hxs : IsTidy xs) (hys : IsTidy ys) (hx : xs ≠ [])
    (hy : ys ≠ []) : IsTidy (xs ++ ' ' :: ys) where
  first c hc := hxs.first c (by rwa [List.head?_append_of_ne_nil xs hx] at hc)
  last c hc := by
    obtain ⟨d, ys, rfl⟩ := List.exists_cons_of_ne_nil hy
    rw [List.getLast?_append_of_ne_nil _ (List.cons_ne_nil _ _), List.getLast?_cons_cons] at hc
    exact hys.last c hc
  single := by
    rw [List.isChain_append, List.isChain_cons]
    exact ⟨hxs.single, ⟨fun d hd => Or.inr (hys.first d hd), hys.single⟩,
      fun c hc _ _ => Or.inl (hxs.last c hc)⟩
  space c hc hblank := by
    rcases List.mem_append.mp hc with hmem | hmem
    · exact hxs.space c hmem hblank
    rcases List.mem_cons.mp hmem with rfl | hmem
    · rfl
    · exact hys.space c hmem hblank

/-- Words with single spaces between them are tidy. -/
theorem isTidy_intercalate {cut : List (List Char)} (hne : ∀ word ∈ cut, word ≠ [])
    (hnot : ∀ word ∈ cut, ∀ c ∈ word, isBlank c = false) : IsTidy ([' '].intercalate cut) := by
  induction cut with
  | nil => exact .of_not_blank (List.forall_mem_nil _)
  | cons word cut ih =>
    obtain ⟨hword, hne⟩ := List.forall_mem_cons.mp hne
    obtain ⟨hwordnot, hnot⟩ := List.forall_mem_cons.mp hnot
    have hfirst : IsTidy word := .of_not_blank hwordnot
    cases cut with
    | nil => rwa [List.intercalate_singleton]
    | cons other cut =>
      rw [List.intercalate_cons_cons, List.append_assoc, List.singleton_append]
      refine hfirst.spaced (ih hne hnot) hword fun hnil => ?_
      -- What has a word is not empty.
      have hcut := cutAtBlanks_intercalate hne hnot
      rw [hnil] at hcut
      cases hcut.runs_eq

/-- **The canonical form is tidy.** -/
theorem isTidy_normalize (s : String) : IsTidy (normalize s).toList := by
  have h := cutAtBlanks_words s
  rw [toList_normalize]
  exact isTidy_intercalate h.ne_nil h.not_blank

theorem takeWhile_isBlank_eq_nil {chars : List Char} (h : ∀ c ∈ chars.head?, isBlank c = false) :
    chars.takeWhile isBlank = [] := by
  cases chars with
  | nil => rfl
  | cons c chars => exact List.takeWhile_cons_of_neg (by simp [h c rfl])

/-- Where no blank is wasted, there is nothing behind the first one but the words and the spaces
between them. -/
theorem CutAtBlanks.eq_takeWhile_append {chars : List Char} {cut : List (List Char)}
    (h : CutAtBlanks chars cut) (hsparing : IsSparing chars) :
    chars = chars.takeWhile isBlank ++ [' '].intercalate cut := by
  -- A rest behind a word starts with a space. So the law is about texts with one in front, too.
  induction h with
  | done => rfl
  | @blank c rest cut hc _ ih =>
    have hrest : IsSparing rest := IsSparing.of_append (show IsSparing ([c] ++ rest) from hsparing)
    rw [List.takeWhile_cons_of_pos hc, List.cons_append, ← ih hrest]
  | @word word rest cut hne hword hblank hcut ih =>
    have hnone : (word ++ rest).takeWhile isBlank = [] := takeWhile_isBlank_eq_nil fun c hc =>
      hword c (List.mem_of_head? (by rwa [List.head?_append_of_ne_nil word hne] at hc))
    have hrest : IsSparing rest := hsparing.of_append
    have ih := ih hrest
    rw [hnone, List.nil_append]
    cases rest with
    | nil =>
      obtain rfl : [] = cut := hcut.runs_eq
      rw [List.append_nil, List.intercalate_singleton]
    | cons c rest =>
      -- Behind the word there is one space, and then the next word.
      have hc : isBlank c = true := hblank c rfl
      have hnext : ∀ d ∈ rest.head?, isBlank d = false := fun d hd =>
        (hrest.single.rel_head? hd).resolve_left (by simp [hc])
      rw [List.takeWhile_cons_of_pos hc, takeWhile_isBlank_eq_nil hnext] at ih
      obtain rfl : rest = [' '].intercalate cut := (List.cons.inj ih).2
      obtain rfl : c = ' ' := hrest.space c List.mem_cons_self hc
      cases cut with
      | nil => exact absurd (hrest.last ' ' rfl) (by decide)
      | cons other cut =>
        rw [List.intercalate_cons_cons, List.append_assoc, List.singleton_append]

/-- **The tidy texts are the canonical forms.** -/
theorem normalize_eq_self_iff {s : String} : normalize s = s ↔ IsTidy s.toList := by
  constructor
  · intro h
    exact h ▸ isTidy_normalize s
  · intro h
    have hcut := (cutAtBlanks_words s).eq_takeWhile_append h.toIsSparing
    rw [takeWhile_isBlank_eq_nil h.first, List.nil_append, ← toList_normalize] at hcut
    exact (String.toList_inj.mp hcut).symm

/-! ### All laws together -/

/-- **The canonical form is canonical.** -/
structure Canonical (a b : String) : Prop where
  /-- No character but blanks is lost, added or moved. -/
  kept : nonBlanks (normalize a) = nonBlanks a
  /-- The only blanks are single spaces between other characters. -/
  tidy : IsTidy (normalize a).toList
  /-- Only of a text of blanks nothing is left. -/
  empty : normalize a = "" ↔ ∀ c ∈ a.toList, isBlank c = true
  /-- The canonical form is its own canonical form. -/
  idempotent : normalize (normalize a) = normalize a
  /-- Blanks between two texts become one space, unless there is nothing on one side. -/
  append : ∀ gap : String, gap ≠ "" → (∀ c ∈ gap.toList, isBlank c = true) →
    normalize (a ++ gap ++ b) = spaced (normalize a) (normalize b)
  /-- Two texts have the same canonical form exactly if they have the same words. -/
  sameWords : normalize a = normalize b ↔ SameWords a b

/-- **Texts have canonical forms.** -/
theorem canonical_normalize (a b : String) : Canonical a b where
  kept := (sameWords_normalize a).nonBlanks_eq
  tidy := isTidy_normalize a
  empty := by rw [← String.isEmpty_iff, isEmpty_normalize, isAllBlank, List.all_eq_true]
  idempotent := normalize_eq_self_iff.mpr (isTidy_normalize a)
  append _ hne hgap := normalize_append hne hgap
  sameWords := normalize_eq_iff

/-- Where two texts meet, a space that must not break a line and a line feed become one space. The
space without a width is no blank. -/
theorem canonical_normalize_seam :
    "\u00A0\n" ≠ "" ∧ (∀ c ∈ "\u00A0\n".toList, isBlank c = true)
      ∧ normalize ("\ttwo" ++ "\u00A0\n" ++ "words\u200B\u2003") = "two words\u200B" := by
  have hne : "\u00A0\n" ≠ "" := by decide
  have hgap : ∀ c ∈ "\u00A0\n".toList, isBlank c = true :=
    List.all_eq_true.mp (by decide +kernel)
  refine ⟨hne, hgap, ?_⟩
  rw [(canonical_normalize "\ttwo" "words\u200B\u2003").append "\u00A0\n" hne hgap]
  decide +kernel

end JsxWidgets.Text
