import JsxWidgets.Widget.Builder

/-!
# Results with notes

What a result with notes says is its value and its notes, and a sequence of such results appends the
notes of its steps. The lemmas here say so once for each way in which results are put together;
behind them nothing about notes needs to unfold the sequencing.
-/

namespace JsxWidgets

open Syntax

namespace Notes

/-- The class names in notes one behind the other are those in each. -/
@[simp] theorem classNames_append (a b : Notes) :
    (a ++ b).classNames = a.classNames ++ b.classNames := rfl

/-- So are the components. -/
@[simp] theorem components_append (a b : Notes) :
    (a ++ b).components = a.components ++ b.components := rfl

/-- So are the reports. -/
@[simp] theorem diagnostics_append (a b : Notes) :
    (a ++ b).diagnostics = a.diagnostics ++ b.diagnostics := rfl

/-- No notes behind change nothing. -/
theorem append_empty (a : Notes) : a ++ {} = a := by
  change Notes.mk (a.classNames ++ []) (a.components ++ []) (a.diagnostics ++ []) = a
  rw [List.append_nil, List.append_nil, List.append_nil]

/-- No notes in front change nothing. -/
theorem empty_append (a : Notes) : {} ++ a = a := rfl

/-- Notes one behind the other may be grouped in either way. -/
theorem append_assoc (a b c : Notes) : a ++ b ++ c = a ++ (b ++ c) := by
  change Notes.mk (a.classNames ++ b.classNames ++ c.classNames)
      (a.components ++ b.components ++ c.components)
      (a.diagnostics ++ b.diagnostics ++ c.diagnostics) = _
  rw [List.append_assoc, List.append_assoc, List.append_assoc]
  rfl

/-- The notes of several steps, one after the other. -/
def join (steps : List Notes) : Notes := steps.foldr (· ++ ·) {}

/-- The notes of several steps start with those of the first. -/
theorem join_cons (a : Notes) (steps : List Notes) : join (a :: steps) = a ++ join steps := rfl

/-- The class names of several steps are those of each. -/
@[simp] theorem classNames_join (steps : List Notes) :
    (join steps).classNames = steps.flatMap (·.classNames) := by
  induction steps with
  | nil => rfl
  | cons a steps ih => rw [join_cons, classNames_append, ih, List.flatMap_cons]

/-- So are the components. -/
@[simp] theorem components_join (steps : List Notes) :
    (join steps).components = steps.flatMap (·.components) := by
  induction steps with
  | nil => rfl
  | cons a steps ih => rw [join_cons, components_append, ih, List.flatMap_cons]

/-- So are the reports. -/
@[simp] theorem diagnostics_join (steps : List Notes) :
    (join steps).diagnostics = steps.flatMap (·.diagnostics) := by
  induction steps with
  | nil => rfl
  | cons a steps ih => rw [join_cons, diagnostics_append, ih, List.flatMap_cons]

end Notes

namespace Noted

variable {α β : Type}

/-- A result as such is that result. -/
@[simp] theorem value_pure (a : α) : (pure a : Noted α).value = a := rfl

/-- It comes without notes. -/
@[simp] theorem notes_pure (a : α) : (pure a : Noted α).notes = {} := rfl

/-- Going on from a result gives what is made of it. -/
@[simp] theorem value_bind (x : Noted α) (f : α → Noted β) :
    (x >>= f).value = (f x.value).value := rfl

/-- The notes of what is made of it stand behind its own. -/
@[simp] theorem notes_bind (x : Noted α) (f : α → Noted β) :
    (x >>= f).notes = x.notes ++ (f x.value).notes := rfl

/-- A function is applied to the result. -/
@[simp] theorem value_map (f : α → β) (x : Noted α) : (f <$> x).value = f x.value := rfl

/-- It leaves the notes alone. -/
@[simp] theorem notes_map (f : α → β) (x : Noted α) : (f <$> x).notes = x.notes :=
  Notes.append_empty _

/-- Steps may be regrouped, and a step that only gives a result notes nothing. -/
instance : LawfulMonad Noted := by
  refine LawfulMonad.mk' Noted ?_ ?_ ?_
  · -- mapping the identity
    intro α x
    exact congrArg (Noted.mk x.value) (Notes.append_empty x.notes)
  · -- a first step that only gives a result
    intro α β x f
    exact congrArg (Noted.mk (f x).value) (Notes.empty_append (f x).notes)
  · -- three steps
    intro α β γ x f g
    exact congrArg (Noted.mk _) (Notes.append_assoc x.notes _ _)

/-- The diagnostic for something that has no rule. -/
def unmappedDiagnostic (message : String) : Diagnostic Location :=
  ⟨.unmappedConstruct, message, none⟩

/-- What has no rule is reported once. -/
@[simp] theorem notes_unmapped (message : String) :
    (unmapped message).notes = { diagnostics := [unmappedDiagnostic message] } := rfl

/-- Class names are noted as such. -/
@[simp] theorem notes_classNames (tokens : List String) :
    (classNames tokens).notes = { classNames := tokens } := rfl

/-- So is a component. -/
@[simp] theorem notes_component (name : String) :
    (component name).notes = { components := [name] } := rfl

end Noted

namespace Builder

variable (b : Builder) (markup : Node)

/-- **A builder makes the widget that markup becomes**, whatever it has made before. -/
@[simp] theorem lower_fst : (b.lower markup).1 = (lowerMarkup b.overrides markup).value := rfl

/-- It appends the notes of this markup to those that it has. -/
@[simp] theorem lower_notes :
    (b.lower markup).2.notes = b.notes ++ (lowerMarkup b.overrides markup).notes := rfl

/-- It keeps its overrides. -/
@[simp] theorem lower_overrides : (b.lower markup).2.overrides = b.overrides := rfl

end Builder

end JsxWidgets
