import JsxWidgets.Widget.Lowering

/-!
# Builders

A builder makes the widgets of one piece of markup after the other. The class names, the components
and the diagnostics of all of them pile up in it.
-/

namespace JsxWidgets

open Syntax

/-- A builder: the widgets that the user wants, and what is noted so far. -/
structure Builder where
  /-- Widgets that replace those of the table. -/
  overrides : Overrides := []
  /-- What is noted so far. -/
  notes : Notes := {}

namespace Builder

/-- The builder behind further notes. -/
def keep (b : Builder) (more : Notes) : Builder := { b with notes := b.notes ++ more }

/-- The widget of markup, and the builder behind it. Markup is an element, or a fragment for several
roots that stand side by side. -/
def lower (b : Builder) (markup : Node) : Widget × Builder :=
  let made := lowerMarkup b.overrides markup
  (made.value, b.keep made.notes)

/-- The tree of a builder that has made its root. -/
def finish (b : Builder) (name : Option String) (root : Widget) : LoweredTree :=
  .ofNoted name ⟨root, b.notes⟩

end Builder

end JsxWidgets
