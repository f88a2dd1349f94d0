import JsxWidgets.Text.Blank
import JsxWidgets.Syntax.Node

/-!
# Fixed pieces of a text

A text that is put together with `+` contains some pieces that are fixed. `pieces` finds those that
stand at most two levels below the whole; deeper ones are not looked for.
-/

namespace JsxWidgets.Expression

open Syntax

/-- The fixed pieces of an operand: a text, the pieces of a template as they are written, or those
of both branches of a choice. -/
def operandPieces : Node → List String
  | ⟨form, _, parts⟩ =>
    match form, parts with
    | .paren, [e] => operandPieces e
    | .asType, [e, _] => operandPieces e
    | .asConst, [e] => operandPieces e
    | .satisfies, [e, _] => operandPieces e
    | .nonNull, [e] => operandPieces e
    | .string v, _ => [v]
    | .template quasis, _ => quasis.map Quasi.raw
    | .conditional, [_, yes, no] => operandPieces yes ++ operandPieces no
    | _, _ => []

/-- The two operands of a sum. -/
def summands? (e : Node) : Option (Node × Node) :=
  match e.unwrap with
  | ⟨.binary .add, _, [l, r]⟩ => some (l, r)
  | _ => none

/-- The fixed pieces of an operand that may itself be a sum. -/
def sidePieces (e : Node) : List String :=
  match summands? e with
  | some (l, r) => operandPieces l ++ operandPieces r
  | none => operandPieces e

/-- The fixed pieces of an expression. -/
def pieces (e : Node) : List String :=
  match summands? e with
  | some (l, r) => sidePieces l ++ sidePieces r
  | none => operandPieces e

/-- The class names in the fixed pieces of an expression. -/
def classTokens (e : Node) : List String := (pieces e).flatMap Text.words

end JsxWidgets.Expression
