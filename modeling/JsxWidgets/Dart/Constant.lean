import JsxWidgets.Dart.Text
import JsxWidgets.Literal

/-!
# Constants in Dart

Literal values as constant expressions. Numbers look as they do in JSON, texts stand in single
quotes, and a blank follows every comma and colon.
-/

namespace JsxWidgets.Literal

mutual

/-- A value as a constant. -/
def dart : Literal → String
  | .null => "null"
  | .bool b => if b then "true" else "false"
  | .int n => toString n
  | .real negative v => realText negative v
  | .text s => Dart.quoted s
  | .array items => "[" ++ ", ".intercalate (dartItems items) ++ "]"
  | .object fields => "\x7b" ++ ", ".intercalate (dartEntries fields) ++ "\x7d"

/-- The items of a list. -/
def dartItems : List Literal → List String
  | [] => []
  | v :: vs => dart v :: dartItems vs

/-- The entries of a map. -/
def dartEntries : List (String × Literal) → List String
  | [] => []
  | (k, v) :: rest => (Dart.quoted k ++ ": " ++ dart v) :: dartEntries rest

end

/-- Whether a value is a collection, in front of which a constant has to be marked as one. -/
def isCollection : Literal → Bool
  | .array _ => true
  | .object _ => true
  | _ => false

/-- Whether a value is of the type with the given name. -/
def hasType (type : String) : Literal → Bool
  | .null => false
  | .bool _ => type = "boolean"
  | .int _ => type = "number"
  | .real .. => type = "number"
  | .text _ => type = "string"
  | .array _ => type = "array"
  | .object _ => type = "object"

end JsxWidgets.Literal
