import JsxWidgets.Literal
import JsxWidgets.Syntax.Node

/-!
# Literal expressions

`literal?` gives the value of an expression that is written out in full: texts, numbers, truth
values, null, and arrays and objects of these. As soon as any part has to be computed there is no
value.
-/

namespace JsxWidgets.Expression

open Syntax

/-- The name that a key is written with, unless it has to be computed. -/
def keyName? (key : Node) : Option String :=
  match key.form with
  | .word t | .stringKey t => some t
  | .numberKey v => some v.positional
  | _ => none

/-- Whole numbers below this bound are integers as values too. -/
def integerBound : Nat := 9000000000000000

/-- The value of a number; a numeral too large for the format has none. -/
def numberValue? (v : Binary64) : Option Literal :=
  match v with
  | .infinite => none
  | .finite .. =>
    match v.toNat? with
    | some n => some (if n < integerBound then .int n else .real false v)
    | none => some (.real false v)

/-- The value of a number with a minus sign. -/
def negated? : Literal → Option Literal
  | .int n => some (.int (-n))
  | .real negative v => some (.real (!negative) v)
  | _ => none

mutual

/-- The value of an expression that is written out in full. -/
def literal? : Node → Option Literal
  | ⟨form, _, parts⟩ =>
    match form, parts with
    | .paren, [e] => literal? e
    | .asType, [e, _] => literal? e
    | .asConst, [e] => literal? e
    | .satisfies, [e, _] => literal? e
    | .nonNull, [e] => literal? e
    | .string v, _ => some (.text v)
    | .bool v, _ => some (.bool v)
    | .null, _ => some .null
    | .number v, _ => numberValue? v
    | .unary .minus, [e] => (literal? e).bind negated?
    | .template quasis, [] => some (.text (String.join (quasis.map Quasi.text)))
    | .array, items => (literalItems? items).map .array
    | .object, properties => (literalFields? properties []).map .object
    | _, _ => none

/-- The values of the items of an array without holes and spreads. -/
def literalItems? : List Node → Option (List Literal)
  | [] => some []
  | ⟨.item, _, [e]⟩ :: rest =>
    match literal? e, literalItems? rest with
    | some v, some vs => some (v :: vs)
    | _, _ => none
  | _ :: _ => none

/-- The fields of an object, added to those in front of them. -/
def literalFields? : List Node → List (String × Literal) → Option (List (String × Literal))
  | [], fields => some fields
  | ⟨.keyed, _, [key, value]⟩ :: rest, fields =>
    match keyName? key, literal? value with
    | some name, some v => literalFields? rest (Literal.setField name v fields)
    | _, _ => none
  | _ :: _, _ => none

end

end JsxWidgets.Expression
