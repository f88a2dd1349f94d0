import JsxWidgets.Syntax.Node

/-!
# Kinds of values

An expression is sorted by its shape alone. Parentheses and types that are stated behind an
expression do not change its kind.
-/

namespace JsxWidgets.Expression

open Syntax

/-- What the shape of an expression says about its value. -/
inductive Kind where
  | string | number | boolean | null | identifier | function | object | array | element | expression
  deriving DecidableEq, Repr, Inhabited

/-- The kind of an expression. -/
def kind (e : Node) : Kind :=
  match e.unwrap.form with
  | .string _ | .template _ => .string
  | .number _ | .bigint _ => .number
  | .bool _ => .boolean
  | .null => .null
  | .name t => if t = "undefined" then .null else .identifier
  | .arrow | .functionExpr => .function
  | .object => .object
  | .array => .array
  | .markup => .element
  | _ => .expression

/-- The name of the type that values of a kind have. -/
def Kind.typeName : Kind → String
  | .string => "string"
  | .number => "number"
  | .boolean => "boolean"
  | .null => "null"
  | .function => "function"
  | .object => "object"
  | .array => "array"
  | .element => "element"
  | .identifier | .expression => "unknown"

/-- The type of what an initializer gives; a missing one gives no value. -/
def inferredType : Option Node → String
  | none => "undefined"
  | some e => (kind e).typeName

/-- Whether an expression is markup. -/
def isMarkup (e : Node) : Bool := e.unwrap.form = .markup

/-- Whether an expression is a function. -/
def isFunction (e : Node) : Bool := kind e = .function

end JsxWidgets.Expression
