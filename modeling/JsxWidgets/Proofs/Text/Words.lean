import Mathlib.Data.List.Basic
import JsxWidgets.Text.Blank
import JsxWidgets.Text.Identifier

/-!
# Words

A text is cut at its blanks, and a run of characters between them is never empty. So a text has
words, and is not empty in its canonical form, as soon as it has a character that is no blank
(`Text.isEmpty_normalize`).

The cut is told step by step: what a character does depends on whether it is blank, and a blank does
nothing unless a run is being read in front of it.
-/

namespace JsxWidgets.Text

/-! ### Single characters -/

section Steps

variable {c : Char} (rest run : List Char)

theorem runs_cons_of_not_blank (h : isBlank c = false) :
    runs (c :: rest) run = runs rest (c :: run) := by
  rw [runs.eq_def]
  simp only [h]
  rfl

theorem runs_cons_nil_of_blank (h : isBlank c = true) : runs (c :: rest) [] = runs rest [] := by
  rw [runs.eq_def]
  simp only [h]
  rfl

theorem runs_cons_cons_of_blank (h : isBlank c = true) (d : Char) :
    runs (c :: rest) (d :: run) = (d :: run).reverse :: runs rest [] := by
  rw [runs.eq_def]
  simp only [h]
  rfl

end Steps

/-! ### The cut -/

/-- **A text that is cut at its blanks**: the words are the maximal runs between them. -/
inductive CutAtBlanks : List Char → List (List Char) → Prop
  /-- Nothing is left. -/
  | done : CutAtBlanks [] []
  /-- A blank is passed over. -/
  | blank {c rest words} (hc : isBlank c = true) (h : CutAtBlanks rest words) :
    CutAtBlanks (c :: rest) words
  /-- A word goes up to the next blank, or up to the end. -/
  | word {word rest words} (hne : word ≠ []) (hword : ∀ c ∈ word, isBlank c = false)
    (hrest : ∀ c ∈ rest.head?, isBlank c = true) (h : CutAtBlanks rest words) :
    CutAtBlanks (word ++ rest) (word :: words)

/-- No word has a blank in it. -/
theorem CutAtBlanks.not_blank {chars : List Char} {words : List (List Char)}
    (h : CutAtBlanks chars words) : ∀ word ∈ words, ∀ c ∈ word, isBlank c = false := by
  induction h with
  | done => exact List.forall_mem_nil _
  | blank _ _ ih => exact ih
  | word _ hword _ _ ih => exact List.forall_mem_cons.mpr ⟨hword, ih⟩

/-- No word is empty. -/
theorem CutAtBlanks.ne_nil {chars : List Char} {cut : List (List Char)}
    (h : CutAtBlanks chars cut) : ∀ word ∈ cut, word ≠ [] := by
  induction h with
  | done => exact List.forall_mem_nil _
  | blank _ _ ih => exact ih
  | word hne _ _ _ ih => exact List.forall_mem_cons.mpr ⟨hne, ih⟩

/-- The runs of a text are its words, where what has been read of the first one may be nothing. -/
theorem cutAtBlanks_runs {chars run : List Char} (hrun : ∀ c ∈ run, isBlank c = false) :
    CutAtBlanks (run.reverse ++ chars) (runs chars run) := by
  have hreverse : ∀ c ∈ run.reverse, isBlank c = false :=
    fun c hc => hrun c (List.mem_reverse.mp hc)
  induction chars generalizing run with
  | nil =>
    cases run with
    | nil => exact .done
    | cons d run => exact .word (by simp) hreverse (fun c hc => nomatch hc) .done
  | cons c chars ih =>
    -- a blank ends the run, any other character makes it longer
    cases hc : isBlank c with
    | false =>
      rw [runs_cons_of_not_blank chars run hc]
      have hlonger : ∀ x ∈ c :: run, isBlank x = false := List.forall_mem_cons.mpr ⟨hc, hrun⟩
      simpa using ih hlonger fun x hx => hlonger x (List.mem_reverse.mp hx)
    | true =>
      have hrest : CutAtBlanks chars (runs chars []) :=
        ih (List.forall_mem_nil _) (List.forall_mem_nil _)
      cases run with
      | nil =>
        rw [runs_cons_nil_of_blank chars hc]
        exact .blank hc hrest
      | cons d run =>
        rw [runs_cons_cons_of_blank chars run hc d]
        exact .word (by simp) hreverse (fun x hx => Option.some.inj hx ▸ hc) (.blank hc hrest)

/-- **The words of a text** are what is left between its blanks. -/
theorem cutAtBlanks_words (s : String) :
    CutAtBlanks s.toList ((words s).map String.toList) := by
  have hwords : (words s).map String.toList = runs s.toList [] := by
    rw [words, List.map_map]
    exact (List.map_congr_left fun chars _ => String.toList_ofList).trans (List.map_id _)
  rw [hwords]
  exact cutAtBlanks_runs (List.forall_mem_nil _)

/-! ### Words -/

/-- Nothing is cut out of blanks, and a run that is being read is not lost. -/
theorem runs_eq_nil_iff {chars run : List Char} :
    runs chars run = [] ↔ run = [] ∧ chars.all isBlank = true := by
  induction chars generalizing run with
  | nil =>
    cases run with
    | nil => exact iff_of_true rfl ⟨rfl, rfl⟩
    | cons d run => exact iff_of_false (List.cons_ne_nil _ _) fun h => List.cons_ne_nil d run h.1
  | cons c chars ih =>
    rw [List.all_cons, Bool.and_eq_true]
    -- a blank adds no run of its own, so only an open run or a later character does
    cases hc : isBlank c with
    | false =>
      rw [runs_cons_of_not_blank chars run hc, ih]
      simp
    | true =>
      cases run with
      | nil =>
        rw [runs_cons_nil_of_blank chars hc, ih]
        simp
      | cons d run =>
        rw [runs_cons_cons_of_blank chars run hc d]
        simp

theorem words_eq_nil_iff {s : String} : words s = [] ↔ isAllBlank s = true := by
  rw [words, List.map_eq_nil_iff, runs_eq_nil_iff, isAllBlank]
  exact and_iff_right rfl

theorem ne_empty_of_mem_words {s word : String} (h : word ∈ words s) : word ≠ "" := by
  have hne : word.toList ≠ [] := (cutAtBlanks_words s).ne_nil _ (List.mem_map_of_mem h)
  rwa [ne_eq, String.toList_eq_nil_iff] at hne

/-- **The canonical form of a text is empty if the text is blank**, and only then. -/
theorem isEmpty_normalize (s : String) : (normalize s).isEmpty = isAllBlank s := by
  rw [normalize]
  cases hwords : words s with
  | nil =>
    rw [words_eq_nil_iff.mp hwords]
    rfl
  | cons word rest =>
    have hblank : isAllBlank s = false := by
      rw [Bool.eq_false_iff, ne_eq, ← words_eq_nil_iff, hwords]
      exact List.cons_ne_nil word rest
    have hword : word ≠ "" := ne_empty_of_mem_words (s := s) (hwords ▸ List.mem_cons_self)
    -- The form starts with the first word.
    have hne : " ".intercalate (word :: rest) ≠ "" := by
      cases rest with
      | nil => rwa [String.intercalate_singleton]
      | cons other rest =>
        rw [String.intercalate_cons_cons]
        simp [hword]
    rw [hblank, Bool.eq_false_iff]
    exact fun h => hne (String.isEmpty_iff.mp h)

/-! ### Blanks at the ends and in names -/

/-- A text without blanks at its ends stays as it is. -/
theorem trim_eq_self {s : String} (hfirst : ∀ c ∈ s.toList.head?, isBlank c = false)
    (hlast : ∀ c ∈ s.toList.getLast?, isBlank c = false) : trim s = s := by
  have hkeep {chars : List Char} (h : ∀ c ∈ chars.head?, isBlank c = false) :
      chars.dropWhile isBlank = chars := by
    cases chars with
    | nil => rfl
    | cons c chars => exact List.dropWhile_cons_of_neg (by simp [h c rfl])
  rw [trim, hkeep hfirst, hkeep, List.reverse_reverse, String.ofList_toList]
  rwa [List.head?_reverse]

/-- The code points of blanks. -/
def blankCodes : List Nat :=
  List.range' 0x9 5 ++ [0x20, 0x85, 0xA0, 0x1680] ++ List.range' 0x2000 11 ++
    [0x2028, 0x2029, 0x202F, 0x205F, 0x3000]

theorem toNat_mem_blankCodes {c : Char} (h : isBlank c = true) : c.toNat ∈ blankCodes := by
  simp only [isBlank, Bool.or_eq_true, Bool.and_eq_true, decide_eq_true_eq] at h
  simp only [blankCodes, List.mem_append, List.mem_range'_1, List.mem_cons, List.not_mem_nil]
  omega

/-- The tables of letters go past the code points of blanks. -/
theorem inRanges_eq_false_of_blank {ranges : Array (Nat × Nat)}
    (h : ranges.toList.all (fun r => blankCodes.all fun n => n < r.1 || r.2 < n) = true)
    {c : Char} (hc : isBlank c = true) : inRanges ranges c.toNat = false := by
  rw [inRanges, ← Array.any_toList, List.any_eq_false]
  rintro ⟨a, b⟩ hr
  have hcode := List.all_eq_true.mp (List.all_eq_true.mp h _ hr) _ (toNat_mem_blankCodes hc)
  simp only [Bool.or_eq_true, decide_eq_true_eq] at hcode
  simp only [Bool.and_eq_true, decide_eq_true_eq]
  omega

/-- No character of a name is blank. -/
theorem isBlank_eq_false_of_isIdentifierPart {c : Char} (h : isIdentifierPart c = true) :
    isBlank c = false := by
  rw [← Bool.not_eq_true]
  intro hblank
  have hstart : inRanges identifierStartRanges c.toNat = false :=
    inRanges_eq_false_of_blank (by decide +kernel) hblank
  have hpart : inRanges identifierPartRanges c.toNat = false :=
    inRanges_eq_false_of_blank (by decide +kernel) hblank
  rw [isIdentifierPart, hstart, hpart] at h
  split at h
  · next hlow =>
    -- the blanks below 128 are few, so they are checked one by one
    have hcodes : ∀ n ∈ blankCodes, n < 0x80 →
        isAsciiAlphanumeric (.ofNat n) = false ∧ Char.ofNat n ≠ '$' ∧ Char.ofNat n ≠ '_' := by
      decide
    obtain ⟨hletter, hdollar, hline⟩ := hcodes _ (toNat_mem_blankCodes hblank) hlow
    rw [Char.ofNat_toNat] at hletter hdollar hline
    simp [hletter, hdollar, hline] at h
  · cases h

end JsxWidgets.Text
