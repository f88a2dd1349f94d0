import JsxWidgets.Text.Blank
import JsxWidgets.Text.Segment

/-!
# Types in Dart

The types that written fields can have. A type stated in the file that is read, or found for a
literal, is recognised by its outermost shape; a type without a counterpart is dynamic.
-/

namespace JsxWidgets.Dart

/-- The types of fields. -/
inductive TypeName where
  /-- Texts. -/
  | string
  /-- Numbers. -/
  | num
  /-- Truth values. -/
  | bool
  /-- Functions to be called back. -/
  | callback
  /-- Lists of anything. -/
  | list
  /-- Anything by name. -/
  | map
  /-- Anything. -/
  | dynamic
  deriving DecidableEq, Repr, Inhabited

namespace TypeName

/-- A type as it is written. -/
def code : TypeName → String
  | .string => "String"
  | .num => "num"
  | .bool => "bool"
  | .callback => "VoidCallback"
  | .list => "List<dynamic>"
  | .map => "Map<String, dynamic>"
  | .dynamic => "dynamic"

/-- The types that have a name of their own. -/
def ofWord? (word : String) : Option TypeName :=
  [("string", .string), ("number", .num), ("boolean", .bool), ("function", .callback),
    ("array", .list), ("object", .map)].lookup word

/-- The type for the text of a type without blanks at its ends. -/
def ofShape (type : String) : TypeName :=
  if Text.contains "=>" type then .callback
  else if Text.endsWith "[]" type || Text.startsWith "Array<" type then .list
  else if Text.startsWith "Record<" type then .map
  else .dynamic

/-- The type for the text of a type. -/
def ofText (type : String) : TypeName :=
  let type := Text.trim type
  (ofWord? type).getD (ofShape type)

/-- Whether a field of a type may be left unset although the type is not marked. -/
def allowsNull (t : TypeName) : Bool := t = .dynamic

end TypeName

end JsxWidgets.Dart
