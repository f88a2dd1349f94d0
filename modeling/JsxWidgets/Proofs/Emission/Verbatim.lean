import JsxWidgets.Dart.Emission
import JsxWidgets.Proofs.Text.Lines

/-!
# Texts that are written as they are

Most of the code of a widget is put together from texts that the widget holds and that are written
as they are: tags, names of arguments, slots, and code (`Widget.verbatim`). Everything else is
either fixed or escaped. So it is these texts on which the lines of the code depend: without line
feeds in them, every line is one that the emission has begun.

Comments are not among them. They are cut into lines, each with its own start.
-/

namespace JsxWidgets

open Dart Text

/-! ### The texts of a widget -/

mutual

/-- **The texts of a widget that are written as they are.** -/
def Widget.verbatim : Widget → List String
  | .mk tag properties _ children _ =>
    tag :: (Property.verbatimOf properties ++ children.verbatim)

/-- The texts of arguments; comments have none. -/
def Property.verbatimOf : List Property → List String
  | [] => []
  | .mk key value isComment :: rest =>
    (if isComment then [] else key :: value.verbatim) ++ Property.verbatimOf rest

/-- The texts of a value. -/
def Value.verbatim : Value → List String
  | .raw s => [s]
  | .text _ => []
  | .flag _ => []
  | .widget w => w.verbatim
  | .list values => Value.verbatimOf values

/-- The texts of several values. -/
def Value.verbatimOf : List Value → List String
  | [] => []
  | v :: vs => v.verbatim ++ Value.verbatimOf vs

/-- The texts of children. -/
def Children.verbatim : Children → List String
  | .none => []
  | .single slot w => slot :: w.verbatim
  | .many slot ws => slot :: Widget.verbatimOf ws

/-- The texts of several widgets. -/
def Widget.verbatimOf : List Widget → List String
  | [] => []
  | w :: ws => w.verbatim ++ Widget.verbatimOf ws

end

namespace Dart

/-! ### Single lines -/

theorem oneLine_append {s t : String} : OneLine (s ++ t) ↔ OneLine s ∧ OneLine t := by
  rw [OneLine, OneLine, OneLine, String.toList_append, List.mem_append, not_or]

theorem oneLine_pad (level : Nat) : OneLine (pad level) := by
  rw [OneLine, pad, String.toList_ofList]
  intro h
  exact absurd (List.eq_of_mem_replicate h) (by decide)

/-- The line break in a text is escaped. -/
theorem oneLine_quoted (s : String) : OneLine (quoted s) := by
  -- a line feed is written as an escape, and no other character gives one
  have hescape : ∀ c : Char, '\n' ∉ escape c := by
    intro c
    by_cases hc : c = '\n'
    · subst hc
      decide
    · unfold escape
      repeat' split
      all_goals simp [Ne.symm hc]
  have hescaped : OneLine (escaped s) := by
    rw [OneLine, escaped, String.toList_ofList]
    intro h
    obtain ⟨c, -, hc⟩ := List.mem_flatMap.mp h
    exact hescape c hc
  exact oneLine_append.mpr ⟨oneLine_append.mpr ⟨by decide, hescaped⟩, by decide⟩

theorem oneLine_label {key : String} (h : OneLine key) : OneLine (label key) := by
  rw [label]
  split
  · decide
  · exact oneLine_append.mpr ⟨h, by decide⟩

/-- The code of a widget with nothing between its parentheses. -/
def bareCode (tag : String) : String :=
  (if constantTags.contains tag then "const " else "") ++ tag ++ "()"

theorem oneLine_bareCode {tag : String} (h : OneLine tag) : OneLine (bareCode tag) := by
  refine oneLine_append.mpr ⟨oneLine_append.mpr ⟨?_, h⟩, by decide⟩
  split <;> decide

/-! ### The form of a widget -/

/-- The code of a widget without a tag. -/
theorem emitAt_nothing {level : Nat} {w : Widget} (htag : w.tag = "") :
    emitAt level w = nothing := by
  obtain ⟨tag, properties, comments, children, source⟩ := w
  obtain rfl : tag = "" := htag
  rfl

/-- The code of a widget with nothing between its parentheses. -/
theorem emitAt_bare {level : Nat} {w : Widget} (htag : w.tag ≠ "") (hempty : w.isEmpty = true) :
    emitAt level w = bareCode w.tag := by
  obtain ⟨tag, properties, comments, children, source⟩ := w
  have htag' : ¬tag.isEmpty = true := fun h => htag (String.isEmpty_iff.mp h)
  rw [emitAt, if_neg htag']
  exact if_pos hempty

/-- The lines between the parentheses of a widget. -/
def blockLines (level : Nat) (w : Widget) : String :=
  String.join (w.comments.map (commentLines level))
    ++ emitProperties level (hasChildLine w.children) w.properties ++ emitChildren level w.children

/-- The code of a widget with something between its parentheses. -/
theorem emitAt_block {level : Nat} {w : Widget} (htag : w.tag ≠ "") (hempty : w.isEmpty = false) :
    emitAt level w =
      w.tag ++ "(" ++ "\n" ++ blockLines (level + 1) w ++ pad level ++ ")" := by
  obtain ⟨tag, properties, comments, children, source⟩ := w
  have htag' : ¬tag.isEmpty = true := fun h => htag (String.isEmpty_iff.mp h)
  have hempty' : ¬(properties.isEmpty && comments.isEmpty && children.isEmpty) = true := by
    rw [show (properties.isEmpty && comments.isEmpty && children.isEmpty) = false from hempty]
    decide
  rw [emitAt, if_neg htag', if_neg hempty', show "(\n" = "(" ++ "\n" from rfl]
  simp only [blockLines, Widget.tag, Widget.properties, Widget.comments, Widget.children,
    String.append_assoc]

/-- A widget with an argument has something between its parentheses. -/
theorem isEmpty_of_mem_properties {w : Widget} {p : Property} (hp : p ∈ w.properties) :
    w.isEmpty = false := by
  rw [Widget.isEmpty, List.isEmpty_eq_false_iff.mpr (List.ne_nil_of_mem hp)]
  rfl

/-- A widget with children has something between its parentheses. -/
theorem isEmpty_of_children {w : Widget} (h : w.children.isEmpty = false) : w.isEmpty = false := by
  rw [Widget.isEmpty, h, Bool.and_false]

end Dart

end JsxWidgets
