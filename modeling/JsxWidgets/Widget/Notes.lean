import JsxWidgets.Diagnostic
import JsxWidgets.Syntax.Location
import JsxWidgets.Text.Order

/-!
# Notes

While elements become widgets, class names, components and diagnostics are noted on the side. Notes
append, so what is noted for an element does not depend on what was noted before.
-/

namespace JsxWidgets

/-- What is noted on the side. -/
structure Notes where
  /-- Class names. -/
  classNames : List String := []
  /-- Components. -/
  components : List String := []
  /-- Diagnostics. -/
  diagnostics : List (Diagnostic Syntax.Location) := []
  deriving Repr, Inhabited

/-- Notes one after the other. -/
def Notes.append (a b : Notes) : Notes :=
  ⟨a.classNames ++ b.classNames, a.components ++ b.components, a.diagnostics ++ b.diagnostics⟩

instance : Append Notes := ⟨Notes.append⟩

/-- A result with notes. -/
structure Noted (α : Type) where
  /-- The result. -/
  value : α
  /-- The notes. -/
  notes : Notes := {}

namespace Noted

/-- Goes on with a result, behind its notes. -/
def andThen {α β : Type} (x : Noted α) (f : α → Noted β) : Noted β :=
  ⟨(f x.value).value, x.notes ++ (f x.value).notes⟩

instance : Monad Noted where
  pure a := ⟨a, {}⟩
  bind := andThen

/-- Notes class names. -/
def classNames (tokens : List String) : Noted Unit := ⟨(), { classNames := tokens }⟩

/-- Notes a component. -/
def component (name : String) : Noted Unit := ⟨(), { components := [name] }⟩

/-- Notes something that has no rule. -/
def unmapped (message : String) : Noted Unit :=
  ⟨(), { diagnostics := [⟨.unmappedConstruct, message, none⟩] }⟩

/-- Notes that it is unclear what to show. -/
def ambiguous (message : String) : Noted Unit :=
  ⟨(), { diagnostics := [⟨.structuralAmbiguity, message, none⟩] }⟩

end Noted

end JsxWidgets
