import JsxWidgets.FunctionIndex
import JsxWidgets.Expression.Summary
import JsxWidgets.Syntax.Markup
import JsxWidgets.Syntax.Survey
import JsxWidgets.Text.Order

/-!
# Composition

Which components a component uses, with what they are handed, and the tree that they form. A
component used inside another one hangs off that one, all others off the component of the file.
-/

namespace JsxWidgets

open Syntax Expression

/-- Something handed to a component. -/
structure ComposedProp where
  /-- The name; a spread has three points. -/
  name : String
  /-- The kind of the value. -/
  kind : Kind
  /-- The value, or its summary. -/
  value : String
  /-- Whether it is a function. -/
  isCallback : Bool
  deriving DecidableEq, Repr, Inhabited

/-- A use of a component. -/
structure CompositionRecord (π : Type) where
  /-- The component of the file. -/
  parent : Option String
  /-- The component that is used. -/
  child : String
  /-- The innermost component around. -/
  markupParent : Option String
  /-- What it is handed. -/
  props : List ComposedProp
  /-- Where it is. -/
  location : π
  deriving Repr, Inhabited

/-- Tells the place of a record in another way. -/
def CompositionRecord.map {π ρ : Type} (f : π → ρ) (r : CompositionRecord π) :
    CompositionRecord ρ :=
  ⟨r.parent, r.child, r.markupParent, r.props, f r.location⟩

namespace Composition

/-- Whether a value is a function, written there or known by name. -/
def isCallback (index : FunctionIndex) (e : Node) : Bool :=
  match e.unwrap.form with
  | .arrow | .functionExpr => true
  | .name t => index.contains t
  | _ => ((path? e).bind (Text.dropStart? "this.")).any index.contains

/-- The text of a value that is handed on, and whether it is a function. -/
def valueText (index : FunctionIndex) : AttributeValue → String × Bool
  | .missing => ("true", false)
  | .quoted text => (text, false)
  | .expression e => (summary e, isCallback index e)
  | .emptyBraces => ("", false)
  | .markup n => (markupSummary n, false)

/-- What an attribute or a spread hands on. -/
def composedProp? (index : FunctionIndex) (n : Node) : Option ComposedProp :=
  match n with
  | ⟨.spread, _, [e]⟩ => some ⟨"...", .object, summary e, false⟩
  | ⟨.attr name, _, _⟩ =>
    let (text, callback) := valueText index n.attributeValue
    some ⟨name.text, n.attributeValue.kind, text, callback⟩
  | _ => none

/-- The component that an element uses. -/
def component? (n : Node) : Option String := (n.tag?.filter (·.isCustom)).map (·.text)

/-- The record of an element. -/
def note (index : FunctionIndex) (parent around : Option String) (n : Node) :
    List (CompositionRecord Place) :=
  match component? n, n.opening? with
  | some child, some o =>
    [⟨parent, child, around, o.attributes.filterMap (composedProp? index), o.place⟩]
  | _, _ => []

/-- The walk; its context is the innermost component around. -/
def survey (index : FunctionIndex) (parent : Option String) :
    Survey (Option String) (CompositionRecord Place) where
  note := note index parent
  enter around n _ := some ((component? n).or around)

end Composition

/-- **The uses of components in a module.** -/
def analyzeComposition (m : Module) : List (CompositionRecord Place) :=
  let parent := m.component?.bind (·.name)
  (Composition.survey (FunctionIndex.ofModule m) parent).runAll none m

/-! ### The tree -/

/-- Components and the components inside them. -/
structure CompositionTree where
  /-- The component of the file. -/
  root : Option String
  /-- The children of each component, in the order of the names. -/
  edges : List (String × List String)
  deriving DecidableEq, Repr, Inhabited

namespace CompositionTree

/-- The name that stands for the component of a file without one. -/
def anonymousRoot : String := "<root>"

/-- What a use hangs off. -/
def anchor {π : Type} (r : CompositionRecord π) : String :=
  (r.markupParent.or r.parent).getD anonymousRoot

/-- Adds a child at the end, unless it is there. -/
def addChild (child : String) (children : Option (List String)) : List String :=
  let known := children.getD []
  if known.contains child then known else known ++ [child]

/-- The tree of some uses. -/
def ofRecords {π : Type} (records : List (CompositionRecord π)) : CompositionTree :=
  { root := records.findSome? (·.parent)
    edges := records.foldl (fun edges r => Text.update (anchor r) (addChild r.child) edges) [] }

end CompositionTree

end JsxWidgets
