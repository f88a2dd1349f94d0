import JsxWidgets.Dart.Text
import JsxWidgets.Widget.Basic

/-!
# Payloads of text widgets

The text of a text widget is put together from pieces: fixed ones, and ones that are computed when
it is shown. Without computed pieces the payload is a text, with some it is code.
-/

namespace JsxWidgets

/-- A piece of a payload. -/
inductive TextPiece where
  /-- A fixed text. -/
  | fixed (text : String)
  /-- The text that an expression gives. -/
  | computed (code : String)
  deriving DecidableEq, Repr, Inhabited

namespace TextPiece

/-- The text of a piece, if it is fixed. -/
def fixed? : TextPiece → Option String
  | .fixed s => some s
  | .computed _ => none

/-- A piece inside quotes. -/
def code : TextPiece → String
  | .fixed s => Dart.escaped s
  | .computed c => "$" ++ "\x7b" ++ c ++ "\x7d"

/-- The payload that pieces make, with single spaces between them. -/
def payload (pieces : List TextPiece) : Value :=
  match pieces.mapM fixed? with
  | some texts => .text (" ".intercalate texts)
  | none => .raw ("'" ++ " ".intercalate (pieces.map code) ++ "'")

end TextPiece

end JsxWidgets
