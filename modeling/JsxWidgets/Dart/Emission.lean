import JsxWidgets.Dart.Text
import JsxWidgets.Text.Segment
import JsxWidgets.Widget.Basic

/-!
# Emission

A widget tree as an expression in Dart. Every argument has a line of its own, indented by two spaces
for each level. An argument ends in a comma unless it is the last one; comments are no arguments.
Every item of a list does.
-/

namespace JsxWidgets.Dart

/-- The spaces of a level. -/
def pad (level : Nat) : String := String.ofList (List.replicate (2 * level) ' ')

/-- A comment, in as many lines as its text has. -/
def commentLines (level : Nat) (text : String) : String :=
  String.join ((Text.lines text).map fun line => pad level ++ "// " ++ line ++ "\n")

/-- What is written for a widget without a tag. -/
def nothing : String := "const SizedBox.shrink()"

/-- The constructors that are constant when they have no arguments. -/
def constantTags : List String := ["SizedBox.shrink", "SizedBox.expand"]

/-- The text of a value in a comment. -/
def commentValue : Value → String
  | .raw s => s
  | .text s => s
  | .flag b => if b then "true" else "false"
  | .widget w => w.tag
  | .list vs => "[" ++ toString vs.length ++ " items]"

/-- The text of an argument that is only a comment. -/
def commentText (key : String) (value : Value) : String :=
  if key.isEmpty then commentValue value else key ++ ": " ++ commentValue value

/-- The name in front of the value of an argument. -/
def label (key : String) : String := if key.isEmpty then "" else key ++ ": "

/-- What an argument ends in. -/
def separator (moreFollow : Bool) : String := if moreFollow then ",\n" else "\n"

/-- Whether children are written behind the arguments. -/
def hasChildLine : Children → Bool
  | .none => false
  | .single .. => true
  | .many .. => true

mutual

/-- A widget whose first line starts at a level. -/
def emitAt (level : Nat) : Widget → String
  | .mk tag properties comments children _ =>
    if tag.isEmpty then nothing
    else if properties.isEmpty && comments.isEmpty && children.isEmpty then
      (if constantTags.contains tag then "const " else "") ++ tag ++ "()"
    else
      tag ++ "(\n" ++ String.join (comments.map (commentLines (level + 1)))
        ++ emitProperties (level + 1) (hasChildLine children) properties
        ++ emitChildren (level + 1) children ++ pad level ++ ")"

/-- Arguments, behind which more may follow. -/
def emitProperties (level : Nat) (moreFollow : Bool) : List Property → String
  | [] => ""
  | .mk key value isComment :: rest =>
    (if isComment then commentLines level (commentText key value)
      else pad level ++ label key ++ emitValue level value
        ++ separator (moreFollow || rest.any (!·.isComment)))
      ++ emitProperties level moreFollow rest

/-- The value of an argument. -/
def emitValue (level : Nat) : Value → String
  | .raw s => s
  | .text s => quoted s
  | .flag b => if b then "true" else "false"
  | .widget w => emitAt level w
  | .list [] => "[]"
  | .list (v :: vs) =>
    "[\n" ++ pad (level + 1) ++ emitValue (level + 1) v ++ ",\n" ++ emitItems (level + 1) vs
      ++ pad level ++ "]"

/-- Items of a list. -/
def emitItems (level : Nat) : List Value → String
  | [] => ""
  | v :: vs => pad level ++ emitValue level v ++ ",\n" ++ emitItems level vs

/-- The children of a widget. -/
def emitChildren (level : Nat) : Children → String
  | .none => ""
  | .single slot w => pad level ++ slot ++ ": " ++ emitAt level w ++ "\n"
  | .many slot ws =>
    pad level ++ slot ++ ": [\n" ++ emitWidgets (level + 1) ws ++ pad level ++ "]\n"

/-- The widgets of a collection. -/
def emitWidgets (level : Nat) : List Widget → String
  | [] => ""
  | w :: ws => pad level ++ emitAt level w ++ ",\n" ++ emitWidgets level ws

end

/-- A widget tree as code. -/
def emit (w : Widget) : String := emitAt 0 w

end JsxWidgets.Dart
