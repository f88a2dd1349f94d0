import JsxWidgets.Text.Case
import JsxWidgets.Text.Blank
import JsxWidgets.Expression.Kind
import JsxWidgets.Expression.Pieces

/-!
# Markup

What the analyses ask about tags and attributes.
-/

namespace JsxWidgets.Syntax

/-- Whether a tag names a component: it is dotted, or starts with a capital. -/
def TagName.isCustom : TagName → Bool
  | .simple n => n.toList.head?.any Text.isUpper
  | .member .. => true
  | .namespaced .. => false

/-- The tag of an element. -/
def Node.tag? (element : Node) : Option TagName :=
  match element with
  | ⟨.element, _, ⟨.opening tag, _, _⟩ :: _⟩ => some tag
  | _ => none

/-- The opening tag of an element. -/
def Node.opening? (element : Node) : Option Node :=
  match element with
  | ⟨.element, _, o :: _⟩ => some o
  | _ => none

/-- The attributes and spreads in an opening tag. -/
def Node.attributes (opening : Node) : List Node :=
  match opening with
  | ⟨.opening _, _, ⟨_, _, attributes⟩ :: _⟩ => attributes
  | _ => []

/-- The value of an attribute. -/
inductive AttributeValue where
  /-- The attribute stands alone. -/
  | missing
  /-- A text in quotes. -/
  | quoted (text : String)
  /-- An expression in braces. -/
  | expression (e : Node)
  /-- Braces without an expression. -/
  | emptyBraces
  /-- An element or a fragment. -/
  | markup (n : Node)

/-- The value of an attribute. -/
def Node.attributeValue (attr : Node) : AttributeValue :=
  match attr with
  | ⟨.attr _, _, [value]⟩ =>
    match value with
    | ⟨.absent, _, _⟩ => .missing
    | ⟨.quoted text, _, _⟩ => .quoted text
    | ⟨.container, _, [⟨.absent, _, _⟩]⟩ => .emptyBraces
    | ⟨.container, _, [e]⟩ => .expression e
    | other => .markup other
  | _ => .missing

/-- The kind of the value of an attribute; an attribute that stands alone is true. -/
def AttributeValue.kind : AttributeValue → Expression.Kind
  | .missing => .boolean
  | .quoted _ => .string
  | .expression e => Expression.kind e
  | .emptyBraces => .expression
  | .markup _ => .element

/-- Whether an attribute holds class names. -/
def isClassAttribute (name : String) : Bool := name = "className" || name = "class"

/-- The class names in the value of an attribute. -/
def AttributeValue.classTokens : AttributeValue → List String
  | .quoted text => Text.words text
  | .expression e => Expression.classTokens e
  | _ => []

end JsxWidgets.Syntax
