/-!
# Diagnostics

What an analysis could not make sense of, in words for the author of a file. A diagnostic may name
the place that it is about.
-/

namespace JsxWidgets

/-- Kinds of diagnostics. -/
inductive DiagnosticKind where
  /-- No component, or more than one candidate. -/
  | structuralAmbiguity
  /-- A tag, an attribute or an expression without a rule. -/
  | unmappedConstruct
  /-- Something that does not have the shape that it should have. -/
  | malformedInput
  deriving DecidableEq, Repr, Inhabited

/-- A diagnostic, with its place told as a `π`. -/
structure Diagnostic (π : Type) where
  /-- The kind. -/
  kind : DiagnosticKind
  /-- The wording. -/
  message : String
  /-- The place, if it is about one. -/
  location : Option π
  deriving DecidableEq, Repr, Inhabited

/-- Tells the place of a diagnostic in another way. -/
def Diagnostic.map {π ρ : Type} (f : π → ρ) (d : Diagnostic π) : Diagnostic ρ :=
  ⟨d.kind, d.message, d.location.map f⟩

end JsxWidgets
