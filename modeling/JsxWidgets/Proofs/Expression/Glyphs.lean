import Mathlib.Data.List.Induction
import Mathlib.Data.String.Basic
import JsxWidgets.Expression.Summary

/-!
# Texts made of glyphs

The text of an expression is made of characters and of texts in quotes. A `Glyph` is one such piece,
and a list of glyphs is written by writing its pieces one behind the other.

A text in quotes escapes the quotes in it but not its backslashes, so it does not show from the
front where it ends: a backslash and a quote may be an escaped quote, or the last character and the
end. From the back it does. A quote behind a backslash is an escaped one there, since no character
outside of quotes is a backslash, and any other quote is the one that opens the text. Therefore
`written_injective` goes by the last glyph.
-/

namespace JsxWidgets.Expression

/-- A piece of a text: a character outside of quotes, or a text in quotes. -/
inductive Glyph where
  /-- A character outside of quotes. -/
  | mark (c : Char)
  /-- A text in quotes. -/
  | quoted (value : String)
  deriving DecidableEq, Repr, Inhabited

namespace Glyph

/-- The characters that a character is written with inside quotes. -/
def escape (c : Char) : List Char := if c = '\x22' then ['\\', c] else [c]

/-- The characters of a text between its quotes. -/
def enclosed (cs : List Char) : List Char := cs.flatMap escape

/-- The characters of a glyph. -/
def chars : Glyph → List Char
  | .mark c => [c]
  | .quoted v => '\x22' :: enclosed v.toList ++ ['\x22']

/-- The characters of several glyphs. -/
def allChars (gs : List Glyph) : List Char := gs.flatMap chars

/-- The text that glyphs spell. -/
def written (gs : List Glyph) : String := String.ofList (allChars gs)

/-- The characters of a text as glyphs. -/
def marks (s : String) : List Glyph := s.toList.map .mark

/-- **What may stand outside of quotes**: neither a quote nor a backslash. -/
def IsPlain : Glyph → Prop
  | .mark c => c ≠ '\x22' ∧ c ≠ '\\'
  | .quoted _ => True

instance : DecidablePred IsPlain
  | .mark _ => inferInstanceAs (Decidable (_ ∧ _))
  | .quoted _ => .isTrue trivial

/-! ### Writing -/

@[simp] theorem allChars_append (gs hs : List Glyph) :
    allChars (gs ++ hs) = allChars gs ++ allChars hs := List.flatMap_append

theorem allChars_singleton (g : Glyph) : allChars [g] = g.chars := List.append_nil _

@[simp] theorem written_append (gs hs : List Glyph) :
    written (gs ++ hs) = written gs ++ written hs := by
  rw [written, allChars_append, String.ofList_append]
  rfl

@[simp] theorem written_mark (c : Char) (gs : List Glyph) :
    written (.mark c :: gs) = String.singleton c ++ written gs := by
  rw [← List.singleton_append, written_append]
  rfl

theorem allChars_map_mark (cs : List Char) : allChars (cs.map .mark) = cs := by
  induction cs with
  | nil => rfl
  | cons c cs ih => exact congrArg (c :: ·) ih

@[simp] theorem written_marks (s : String) : written (marks s) = s := by
  rw [written, marks, allChars_map_mark, String.ofList_toList]

theorem written_quoted (v : String) : written [.quoted v] = quotedSummary v := by
  rw [written, allChars_singleton, chars, quotedSummary, List.cons_append]
  simp only [String.ext_iff, String.toList_ofList, String.toList_append]
  rfl

/-! ### The last character -/

theorem enclosed_append_singleton (cs : List Char) (c : Char) :
    enclosed (cs ++ [c]) = enclosed cs ++ escape c := by
  rw [enclosed, List.flatMap_append, List.flatMap_singleton]
  rfl

theorem getLast?_append_escape (cs : List Char) (c : Char) :
    (cs ++ escape c).getLast? = some c := by
  rw [escape]
  split
  · simp
  · simp

/-- Outside of quotes nothing ends with a backslash. -/
theorem allChars_ne_append_backslash {gs : List Glyph} (h : ∀ g ∈ gs, g.IsPlain)
    (cs : List Char) : allChars gs ≠ cs ++ ['\\'] := by
  intro heq
  rcases List.eq_nil_or_concat' gs with rfl | ⟨front, g, rfl⟩
  · exact absurd heq (by simp [allChars])
  · rw [allChars_append, allChars_singleton] at heq
    cases g with
    | mark c =>
      have hc : c = '\\' := List.singleton_inj.mp (List.append_inj' heq rfl).2
      exact (h (.mark c) (by simp)).2 hc
    | quoted v =>
      rw [chars, ← List.append_assoc] at heq
      have hquote := List.singleton_inj.mp (List.append_inj' heq rfl).2
      exact absurd hquote (by decide)

/-- The quote that opens a text is none inside of a text that starts further in front. -/
theorem opening_ne_inside {gs : List Glyph} (h : ∀ g ∈ gs, g.IsPlain) (cs : List Char) (c : Char) :
    allChars gs ++ ['\x22'] ≠ cs ++ escape c := by
  intro heq
  have hc : '\x22' = c := by
    have hlast := congrArg List.getLast? heq
    rw [getLast?_append_escape, List.getLast?_concat] at hlast
    exact Option.some.inj hlast
  -- So it is an escaped quote, and a backslash stands outside of quotes.
  subst hc
  have hescaped : allChars gs ++ ['\x22'] = (cs ++ ['\\']) ++ ['\x22'] := by
    rw [heq, escape, if_pos rfl, List.append_assoc]
    rfl
  exact allChars_ne_append_backslash h cs (List.append_inj' hescaped rfl).1

/-- A text in quotes is read from its end: where it starts and what it is are determined, if what
stands in front of it is. -/
theorem quoted_inj {front front' : List Glyph} (hplain : ∀ g ∈ front, g.IsPlain)
    (hplain' : ∀ g ∈ front', g.IsPlain) (hfront : allChars front = allChars front' → front = front')
    {cs cs' : List Char}
    (h : allChars front ++ '\x22' :: enclosed cs = allChars front' ++ '\x22' :: enclosed cs') :
    front = front' ∧ cs = cs' := by
  -- The text is taken off from its end, one character at a time.
  induction cs using List.reverseRecOn generalizing cs' with
  | nil =>
    rcases List.eq_nil_or_concat' cs' with rfl | ⟨rest', c', rfl⟩
    · exact ⟨hfront (List.append_inj' h rfl).1, rfl⟩
    · rw [enclosed_append_singleton, ← List.cons_append, ← List.append_assoc] at h
      exact absurd h (opening_ne_inside hplain _ c')
  | append_singleton rest c ih =>
    rw [enclosed_append_singleton, ← List.cons_append, ← List.append_assoc] at h
    rcases List.eq_nil_or_concat' cs' with rfl | ⟨rest', c', rfl⟩
    · exact absurd h.symm (opening_ne_inside hplain' _ c)
    · rw [enclosed_append_singleton, ← List.cons_append, ← List.append_assoc] at h
      have hc : c = c' := by
        have hlast := congrArg List.getLast? h
        rw [getLast?_append_escape, getLast?_append_escape] at hlast
        exact Option.some.inj hlast
      subst hc
      obtain ⟨hfronts, hrest⟩ := ih (List.append_cancel_right h)
      exact ⟨hfronts, by rw [hrest]⟩

/-- **What glyphs spell determines them**, if no quote and no backslash stands outside of quotes. -/
theorem allChars_injective {gs hs : List Glyph} (hgs : ∀ g ∈ gs, g.IsPlain)
    (hhs : ∀ g ∈ hs, g.IsPlain) (h : allChars gs = allChars hs) : gs = hs := by
  -- From the back, since a quoted text is closed by a quote, which ends no mark.
  induction gs using List.reverseRecOn generalizing hs with
  | nil =>
    rcases List.eq_nil_or_concat' hs with rfl | ⟨rest, g, rfl⟩
    · rfl
    · cases g <;> simp [allChars, chars] at h
  | append_singleton front g ih =>
    rcases List.eq_nil_or_concat' hs with rfl | ⟨front', g', rfl⟩
    · cases g <;> simp [allChars, chars] at h
    · have hfront : ∀ x ∈ front, x.IsPlain := fun x hx => hgs x (List.mem_append_left _ hx)
      have hfront' : ∀ x ∈ front', x.IsPlain := fun x hx => hhs x (List.mem_append_left _ hx)
      rw [allChars_append, allChars_append, allChars_singleton, allChars_singleton] at h
      cases g with
      | mark c =>
        cases g' with
        | mark c' =>
          have hc : c = c' := List.singleton_inj.mp (List.append_inj' h rfl).2
          rw [ih hfront hfront' (List.append_inj' h rfl).1, hc]
        | quoted v =>
          rw [chars, chars, ← List.append_assoc] at h
          have hc : c = '\x22' := List.singleton_inj.mp (List.append_inj' h rfl).2
          exact absurd hc (hgs (.mark c) (by simp)).1
      | quoted v =>
        cases g' with
        | mark c =>
          rw [chars, chars, ← List.append_assoc] at h
          have hc : '\x22' = c := List.singleton_inj.mp (List.append_inj' h rfl).2
          exact absurd hc.symm (hhs (.mark c) (by simp)).1
        | quoted v' =>
          rw [chars, chars, ← List.append_assoc, ← List.append_assoc] at h
          obtain ⟨hfronts, hvalues⟩ := quoted_inj hfront hfront' (ih hfront hfront')
            (List.append_cancel_right h)
          rw [hfronts, String.toList_injective hvalues]

/-- **A text determines its glyphs**, if no quote and no backslash stands outside of quotes. -/
theorem written_injective {gs hs : List Glyph} (hgs : ∀ g ∈ gs, g.IsPlain)
    (hhs : ∀ g ∈ hs, g.IsPlain) (h : written gs = written hs) : gs = hs :=
  allChars_injective hgs hhs (String.ofList_injective h)

end Glyph

end JsxWidgets.Expression
