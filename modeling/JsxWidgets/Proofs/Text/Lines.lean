import JsxWidgets.Text.Segment

/-!
# Lines of a text

A line ends at a line feed, which belongs to it. Two changes of a text go line by line: every line
but the first is indented (`Text.indentLines`), or the lines that are comments are left out
(`Text.withoutCommentLines`).

Indenting goes through a text character by character, so it is a homomorphism
(`indentLines_append`). Leaving out comments is none: whether a character stays depends on what
stands in front of it on its line. It is taken apart instead by two readings of what is left of a
text: `Text.codeLines` reads from the start of a line, and `Text.codeRest` from inside a line that
is no comment.
-/

namespace JsxWidgets.Text

/-! ### Single lines -/

/-- A text without line feeds. -/
def OneLine (s : String) : Prop := '\n' ∉ s.toList

instance (s : String) : Decidable (OneLine s) := inferInstanceAs (Decidable ('\n' ∉ s.toList))

/-- No piece between separators has a separator in it. -/
theorem sep_eq_false_of_mem_pieces {sep : Char → Bool} {chars piece : List Char}
    (h : piece ∈ pieces sep chars) : ∀ c ∈ piece, sep c = false := by
  induction chars generalizing piece with
  | nil =>
    intro c hc
    rw [pieces, List.mem_singleton] at h
    subst h
    cases hc
  | cons x rest ih =>
    rw [pieces] at h
    split at h
    · rcases List.mem_cons.mp h with rfl | hrest
      · intro c hc
        cases hc
      · exact ih hrest
    · next hx =>
      have hsep : sep x = false := by simpa using hx
      -- The character goes in front of the first piece of the rest.
      split at h
      · intro c hc
        rw [List.mem_singleton] at h
        subst h
        rw [List.mem_singleton] at hc
        rw [hc, hsep]
      · next p ps hps =>
        rcases List.mem_cons.mp h with rfl | hrest
        · intro c hc
          rcases List.mem_cons.mp hc with rfl | hc
          · exact hsep
          · exact ih (by rw [hps]; exact List.mem_cons_self) c hc
        · exact ih (by rw [hps]; exact List.mem_cons_of_mem _ hrest)

/-- The lines that a comment is written in have no line feeds. -/
theorem oneLine_of_mem_lines {s line : String} (h : line ∈ lines s) : OneLine line := by
  obtain ⟨⟨p, i⟩, hmem, rfl⟩ := List.mem_map.mp h
  have hpiece : p ∈ pieces (· = '\n') s.toList := by
    have hp := List.fst_mem_of_mem_zipIdx hmem
    split at hp
    · exact List.dropLast_subset _ hp
    · exact hp
  have hp : '\n' ∉ p := by
    intro hlf
    exact absurd (sep_eq_false_of_mem_pieces hpiece '\n' hlf) (by decide)
  -- A line is a piece, or a piece without the carriage return at its end.
  have hline : ∀ (cut : Prop) [Decidable cut], '\n' ∉ if cut then p.dropLast else p := by
    intro cut _
    split
    · exact fun hlf => hp (List.dropLast_subset _ hlf)
    · exact hp
  rw [OneLine, String.toList_ofList]
  exact hline _

/-! ### Indented lines -/

/-- A text with spaces inserted behind every line feed. -/
def indentLines (spaces : Nat) (s : String) : String :=
  String.ofList (s.toList.flatMap fun c =>
    if c = '\n' then c :: List.replicate spaces ' ' else [c])

theorem indentLines_append (spaces : Nat) (s t : String) :
    indentLines spaces (s ++ t) = indentLines spaces s ++ indentLines spaces t := by
  rw [indentLines, String.toList_append, List.flatMap_append, String.ofList_append]
  rfl

/-- There is nothing to indent on the first line. -/
theorem indentLines_of_oneLine {s : String} (spaces : Nat) (h : OneLine s) :
    indentLines spaces s = s := by
  have hkept : ∀ chars : List Char, '\n' ∉ chars →
      (chars.flatMap fun c => if c = '\n' then c :: List.replicate spaces ' ' else [c])
        = chars := by
    intro chars hchars
    induction chars with
    | nil => rfl
    | cons c rest ih =>
      have hc : c ≠ '\n' := fun heq => hchars (heq ▸ List.mem_cons_self)
      rw [List.flatMap_cons, if_neg hc, ih fun hmem => hchars (List.mem_cons_of_mem _ hmem)]
      rfl
  rw [indentLines, hkept _ h, String.ofList_toList]

/-- The spaces behind a line feed stand in front of what follows it. -/
theorem indentLines_lineFeed (spaces : Nat) :
    indentLines spaces "\n" = "\n" ++ String.ofList (List.replicate spaces ' ') := by
  apply String.toList_injective
  rw [indentLines, String.toList_ofList, String.toList_append, String.toList_ofList]
  simp

/-! ### Parts -/

/-- A text that occurs in another one. -/
def Within (part whole : String) : Prop := ∃ front behind, whole = front ++ part ++ behind

theorem Within.refl (s : String) : Within s s := ⟨"", "", by simp⟩

theorem Within.trans {a b c : String} (hab : Within a b) (hbc : Within b c) : Within a c := by
  obtain ⟨f, g, rfl⟩ := hab
  obtain ⟨f', g', rfl⟩ := hbc
  exact ⟨f' ++ f, g ++ g', by simp only [String.append_assoc]⟩

theorem Within.append_left {part whole : String} (front : String) (h : Within part whole) :
    Within part (front ++ whole) := by
  obtain ⟨f, g, rfl⟩ := h
  exact ⟨front ++ f, g, by simp only [String.append_assoc]⟩

theorem Within.append_right {part whole : String} (h : Within part whole) (behind : String) :
    Within part (whole ++ behind) := by
  obtain ⟨f, g, rfl⟩ := h
  exact ⟨f, g ++ behind, by simp only [String.append_assoc]⟩

/-! ### Lines that are no comments -/

/-- The lines of a text, each with the line feed that ends it. -/
def linesWithEnds : List Char → List (List Char)
  | [] => []
  | c :: rest =>
    if c = '\n' then ['\n'] :: linesWithEnds rest
    else
      match linesWithEnds rest with
      | [] => [[c]]
      | line :: more => (c :: line) :: more

/-- Whether the first characters behind the spaces are two slashes. -/
def startsComment : List Char → Bool
  | ' ' :: rest => startsComment rest
  | '/' :: '/' :: _ => true
  | _ => false

/-- What is left of a text when the lines that are comments are deleted. -/
def codeLines (chars : List Char) : List Char :=
  ((linesWithEnds chars).filter (!startsComment ·)).flatten

/-- What is left of the rest of a line that is no comment, and of the lines behind it. -/
def codeRest : List Char → List Char
  | [] => []
  | c :: rest => if c = '\n' then '\n' :: codeLines rest else c :: codeRest rest

/-- **A text without the lines whose first characters behind the spaces are two slashes.** -/
def withoutCommentLines (s : String) : String := String.ofList (codeLines s.toList)

/-- The first line of a text that has a line feed. -/
theorem linesWithEnds_append {line : List Char} (h : '\n' ∉ line) (rest : List Char) :
    linesWithEnds (line ++ '\n' :: rest) = (line ++ ['\n']) :: linesWithEnds rest := by
  induction line with
  | nil => rw [List.nil_append, linesWithEnds, if_pos rfl, List.nil_append]
  | cons c line ih =>
    have hc : c ≠ '\n' := fun heq => h (heq ▸ List.mem_cons_self)
    rw [List.cons_append, linesWithEnds, if_neg hc, ih fun hmem => h (List.mem_cons_of_mem _ hmem)]
    rfl

/-- The first line of a text, and what is left of the text if that line is no comment. -/
theorem exists_firstLine {chars : List Char} (h : chars ≠ []) :
    ∃ line more, linesWithEnds chars = line :: more ∧ line.head? = chars.head? ∧
      startsComment line = startsComment chars ∧
      codeRest chars = line ++ (more.filter (!startsComment ·)).flatten := by
  induction chars with
  | nil => exact absurd rfl h
  | cons c rest ih =>
    by_cases hc : c = '\n'
    · subst hc
      refine ⟨['\n'], linesWithEnds rest, ?_, rfl, rfl, ?_⟩
      · rw [linesWithEnds, if_pos rfl]
      · rw [codeRest, if_pos rfl]
        rfl
    · cases rest with
      | nil =>
        refine ⟨[c], [], ?_, rfl, rfl, ?_⟩
        · rw [linesWithEnds, if_neg hc]
          rfl
        · rw [codeRest, if_neg hc]
          rfl
      | cons d rest =>
        obtain ⟨line, more, hlines, hhead, hstarts, hrest⟩ := ih (List.cons_ne_nil d rest)
        obtain ⟨line, rfl⟩ : ∃ tail, line = d :: tail := by
          cases line with
          | nil => cases hhead
          | cons x tail =>
            obtain rfl : x = d := Option.some.inj hhead
            exact ⟨tail, rfl⟩
        refine ⟨c :: d :: line, more, ?_, rfl, ?_, ?_⟩
        · rw [linesWithEnds, if_neg hc, hlines]
        · -- Two characters decide, or those behind a space.
          by_cases hspace : c = ' '
          · subst hspace
            rw [startsComment, startsComment, hstarts]
          · unfold startsComment
            split <;> simp_all
        · rw [codeRest, if_neg hc, hrest]
          rfl

/-- Of a text that does not start with a comment the first line is left. -/
theorem codeLines_of_code {chars : List Char} (h : startsComment chars = false) :
    codeLines chars = codeRest chars := by
  by_cases hne : chars = []
  · subst hne
    rfl
  · obtain ⟨line, more, hlines, -, hstarts, hrest⟩ := exists_firstLine hne
    rw [codeLines, hlines, hrest, List.filter_cons_of_pos (by rw [hstarts, h]; rfl),
      List.flatten_cons]

/-- A comment is deleted with its line feed. -/
theorem codeLines_of_comment {line : List Char} (hline : '\n' ∉ line)
    (h : startsComment (line ++ ['\n']) = true) (rest : List Char) :
    codeLines (line ++ '\n' :: rest) = codeLines rest := by
  rw [codeLines, linesWithEnds_append hline, List.filter_cons_of_neg (by rw [h]; decide)]
  rfl

/-- On a line, every character up to the line feed is left. -/
theorem codeRest_append {chars : List Char} (h : '\n' ∉ chars) (rest : List Char) :
    codeRest (chars ++ rest) = chars ++ codeRest rest := by
  induction chars with
  | nil => rfl
  | cons c chars ih =>
    have hc : c ≠ '\n' := fun heq => h (heq ▸ List.mem_cons_self)
    rw [List.cons_append, codeRest, if_neg hc, ih fun hmem => h (List.mem_cons_of_mem _ hmem)]
    rfl

@[simp] theorem codeRest_lineFeed (rest : List Char) :
    codeRest ('\n' :: rest) = '\n' :: codeLines rest := by
  rw [codeRest, if_pos rfl]

/-- Spaces in front do not matter for whether a line is a comment. -/
theorem startsComment_spaces (count : Nat) (rest : List Char) :
    startsComment (List.replicate count ' ' ++ rest) = startsComment rest := by
  induction count with
  | zero => rfl
  | succ count ih => rw [List.replicate_succ, List.cons_append, startsComment, ih]

/-- What is no comment becomes none by what stands behind it, unless it goes on in a way in which
comments start. -/
theorem startsComment_append {chars : List Char} (h : startsComment chars = false) {c : Char}
    (hspace : c ≠ ' ') (hslash : c ≠ '/') (rest : List Char) :
    startsComment (chars ++ c :: rest) = false := by
  fun_induction startsComment chars with
  | case1 chars ih =>
    rw [List.cons_append, startsComment]
    exact ih h
  | case2 => cases h
  | case3 chars hnospace hnoslashes =>
    unfold startsComment
    split
    · -- a space in front, which can only be the character behind
      next heq =>
      cases chars with
      | nil => exact absurd (List.cons.inj heq).1 hspace
      | cons x chars => exact absurd (by rw [(List.cons.inj heq).1]) (hnospace chars)
    · -- two slashes in front, of which the second one at most is the character behind
      next heq =>
      match chars with
      | [] => exact absurd (List.cons.inj heq).1 hslash
      | [x] => exact absurd (List.cons.inj (List.cons.inj heq).2).1 hslash
      | x :: y :: chars =>
        obtain ⟨hx, heq⟩ := List.cons.inj heq
        obtain ⟨hy, -⟩ := List.cons.inj heq
        exact absurd (by rw [hx, hy]) (hnoslashes chars)
    · rfl

end JsxWidgets.Text
