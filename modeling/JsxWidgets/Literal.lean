import JsxWidgets.Decimal.Shortest
import JsxWidgets.Text.Order

/-!
# Literal values

What an initializer or a default denotes when it is written out in full: JSON data, with integers
and other numbers told apart. The fields of an object are sorted by name and each name occurs once.

`Literal.json` is the compact JSON text of a value.
-/

namespace JsxWidgets

/-- A value that a program text spells out. -/
inductive Literal where
  /-- The null value. -/
  | null
  /-- A truth value. -/
  | bool (value : Bool)
  /-- An integer. -/
  | int (value : Int)
  /-- A number that is not written as an integer, with its sign. -/
  | real (negative : Bool) (magnitude : Binary64)
  /-- A text. -/
  | text (value : String)
  /-- A list of values. -/
  | array (items : List Literal)
  /-- Values by name, in the order of the names. -/
  | object (fields : List (String × Literal))
  deriving Repr, Inhabited

namespace Literal

/-- Four lower-case hexadecimal digits. -/
def hexQuad (n : Nat) : List Char :=
  let ds := Nat.toDigits 16 n
  List.replicate (4 - ds.length) '0' ++ ds

/-- A character inside a JSON string. -/
def escapeJson (c : Char) : List Char :=
  if c = '\x22' then ['\\', '\x22']
  else if c = '\\' then ['\\', '\\']
  else if c = '\n' then ['\\', 'n']
  else if c = '\r' then ['\\', 'r']
  else if c = '\t' then ['\\', 't']
  else if c = '\x08' then ['\\', 'b']
  else if c = '\x0c' then ['\\', 'f']
  else if c.toNat < 0x20 then '\\' :: 'u' :: hexQuad c.toNat
  else [c]

/-- A text as a JSON string. -/
def quoteJson (s : String) : String :=
  String.ofList ('\x22' :: s.toList.flatMap escapeJson ++ ['\x22'])

/-- The text of a number that is not an integer. -/
def realText (negative : Bool) (magnitude : Binary64) : String :=
  (if negative then "-" else "") ++ magnitude.exponential

mutual

/-- The compact JSON text of a value. -/
def json : Literal → String
  | .null => "null"
  | .bool b => if b then "true" else "false"
  | .int n => toString n
  | .real negative v => realText negative v
  | .text s => quoteJson s
  | .array items => "[" ++ ",".intercalate (jsonItems items) ++ "]"
  | .object fields => "\x7b" ++ ",".intercalate (jsonFields fields) ++ "\x7d"

/-- The texts of the items of an array. -/
def jsonItems : List Literal → List String
  | [] => []
  | v :: vs => json v :: jsonItems vs

/-- The texts of the fields of an object. -/
def jsonFields : List (String × Literal) → List String
  | [] => []
  | (k, v) :: rest => (quoteJson k ++ ":" ++ json v) :: jsonFields rest

end

/-- Sets a field; a later value of the same name replaces the earlier one. -/
def setField (name : String) (value : Literal) (fields : List (String × Literal)) :
    List (String × Literal) :=
  Text.update name (fun _ => value) fields

end Literal

end JsxWidgets
