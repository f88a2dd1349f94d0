import JsxWidgets.Dart.Text
import JsxWidgets.Expression.Path
import JsxWidgets.Expression.Summary
import JsxWidgets.Naming
import JsxWidgets.Syntax.Markup
import JsxWidgets.Widget.Basic
import JsxWidgets.Widget.Notes
import JsxWidgets.Widget.Table

/-!
# Attributes of known elements

Every attribute of an element becomes an argument of its widget or a comment. Class names become
comments always, for there is nothing in a widget that they could name.
-/

namespace JsxWidgets

open Syntax Expression

/-! ### Values -/

/-- The value of an attribute as the rules see it. -/
inductive GivenValue where
  /-- The attribute stands alone. -/
  | standsAlone
  /-- A text. -/
  | text (s : String)
  /-- An expression, without parentheses. -/
  | expression (e : Node)
  /-- Markup: an element or a fragment. -/
  | markup (n : Node)

namespace GivenValue

/-- The value of an expression. -/
def ofExpr (e : Node) : GivenValue :=
  match e.unwrap with
  | ⟨.string s, _, _⟩ => .text s
  | ⟨.template quasis, _, []⟩ => .text (String.join (quasis.map Quasi.text))
  | ⟨.markup, _, [n]⟩ => .markup n
  | other => .expression other

/-- The value of an attribute. -/
def ofAttribute (attr : Node) : GivenValue :=
  match attr.attributeValue with
  | .missing => .standsAlone
  | .quoted s => .text s
  | .expression e => ofExpr e
  | .emptyBraces => .standsAlone
  | .markup n => .markup n

/-- The value in a comment. -/
def describe : GivenValue → String
  | .standsAlone => "true"
  | .text s => s
  | .expression e => summary e
  | .markup n => markupSummary n

/-- The code of a value that is a number, a truth value or null. -/
def simpleCode? : GivenValue → Option String
  | .standsAlone => some "true"
  | .expression e =>
    match e with
    | ⟨.number _, _, _⟩ => some (summary e)
    | ⟨.bool _, _, _⟩ => some (summary e)
    | ⟨.null, _, _⟩ => some (summary e)
    | ⟨.unary .minus, _, [⟨.number _, _, _⟩]⟩ => some (summary e)
    | _ => none
  | _ => none

/-- The code of a value; a text is quoted. -/
def code : GivenValue → String
  | .text s => Dart.quoted s
  | other => other.simpleCode?.getD other.describe

/-- The class names in a value. -/
def classTokens : GivenValue → List String
  | .text s => Text.words s
  | .expression e => Expression.classTokens e
  | _ => []

end GivenValue

/-- The name of a parameter of a handler. -/
def parameterName (pattern : Node) : String :=
  match pattern.form with
  | .bind t => t
  | _ => "_"

/-- The parameters of a handler. -/
def parameterList (params : List Node) : String :=
  "(" ++ ", ".intercalate (params.map parameterName) ++ ")"

/-- The code of a handler that does nothing. -/
def emptyHandler : String := "() \x7b\x7d"

/-- The code of a handler: a function that gives a value keeps it, one with statements loses
them. -/
def handlerCode (value : GivenValue) : String :=
  match value with
  | .expression e =>
    match e with
    | ⟨.arrow, _, ⟨_, _, params⟩ :: ⟨.body, _, _⟩ :: _⟩ => parameterList params ++ " \x7b\x7d"
    | ⟨.arrow, _, ⟨_, _, params⟩ :: result :: _⟩ =>
      parameterList params ++ " => " ++ summary result
    | ⟨.functionExpr, _, [_, ⟨.fn, _, ⟨_, _, params⟩ :: _⟩]⟩ =>
      parameterList params ++ " \x7b\x7d"
    | other => summary other
  | _ => emptyHandler

/-! ### What an attribute adds -/

/-- What is added to a widget: arguments and comments. -/
structure Additions where
  /-- The arguments. -/
  properties : List Property := []
  /-- The comments. -/
  comments : List String := []

/-- Additions one after the other. -/
def Additions.append (a b : Additions) : Additions :=
  ⟨a.properties ++ b.properties, a.comments ++ b.comments⟩

instance : Append Additions := ⟨Additions.append⟩

/-- One argument. -/
def Additions.argument (p : Property) : Additions := { properties := [p] }

/-- One argument given as code. -/
def Additions.code (key code : String) : Additions := .argument (.named key (.raw code))

/-- One comment in the place of an argument. -/
def Additions.comment (key text : String) : Additions := .argument (.comment key text)

/-- One remark of the widget itself. -/
def Additions.remark (text : String) : Additions := { comments := [text] }

/-- Attributes that an object holds cannot be told apart. -/
def lowerSpread (target : String) (e : Node) : Noted Additions := do
  let inner := openBrace ++ "..." ++ summary e ++ closeBrace
  Noted.unmapped ("spread attributes " ++ inner ++ " on <" ++ target ++ ">")
  return .comment "" (inner ++ " spread attributes not lowered")

/-- Class names become a comment. -/
def lowerClass (mark : String) (value : GivenValue) : Noted Additions := do
  Noted.classNames value.classTokens
  return .remark (mark ++ "className: " ++ value.describe)

/-- The argument for the key of an element. -/
def keyArgument (value : GivenValue) : Additions := .code "key" ("ValueKey(" ++ value.code ++ ")")

/-- The comment for an attribute without a rule. -/
def unhandled (key : String) (value : GivenValue) : Additions :=
  .comment key ("unhandled attribute (" ++ value.describe ++ ")")

/-! ### The rules -/

/-- Whether an element takes text from the user. -/
def isTextInput (tag : String) : Bool := tag = "input" || tag = "textarea"

/-- The rule for the value of an element. -/
def lowerValue (tag : String) (value : GivenValue) : Additions :=
  let controller (text : String) : Additions :=
    .code "controller" ("TextEditingController(text: " ++ text ++ ")")
  match value, value.simpleCode?, isTextInput tag with
  | .text s, _, true => controller (Dart.quoted s)
  | .expression _, some _, true => controller ("'" ++ value.describe ++ "'")
  | .expression e, none, _ => .comment "value" (summary e ++ " (external controller needed)")
  | _, _, _ => .code "value" value.code

/-- The rule for an element that may be disabled. -/
def lowerDisabled (value : GivenValue) : Additions :=
  match value with
  | .expression ⟨.bool b, _, _⟩ => .argument (.named "enabled" (.flag (!b)))
  | .expression e => .code "enabled" ("!(" ++ summary e ++ ")")
  | _ => .argument (.named "enabled" (.flag false))

/-- The rule for the type of a text input; some types have none. -/
def lowerInputType? (type : String) : Option Additions :=
  match type with
  | "password" => some (.argument (.named "obscureText" (.flag true)))
  | "email" => some (.code "keyboardType" "TextInputType.emailAddress")
  | "number" => some (.code "keyboardType" "TextInputType.number")
  | "tel" => some (.code "keyboardType" "TextInputType.phone")
  | "url" => some (.code "keyboardType" "TextInputType.url")
  | "text" => some (.comment "type" "text")
  | _ => none

/-- The rule for a hint in a text input. -/
def lowerHint (value : GivenValue) : Additions :=
  .argument (.named "decoration" (.widget
    (.mk "InputDecoration" [.named "hintText" (.raw value.code)] [] .none none)))

/-- The rule for an attribute, unless it holds class names or the key. Whether there is already a
real argument `key` decides about `id`. -/
def attributeRule? (row : ElementRow) (tag : String) (hasKey : Bool) (name : String)
    (value : GivenValue) : Option Additions :=
  match name with
  | "onClick" | "onPress" =>
    some (.code (if row.roles.buttonLike then "onPressed" else "onTap") (handlerCode value))
  | "onChange" | "onChangeText" => some (.code "onChanged" (handlerCode value))
  | "onLongPress" => some (.code "onLongPress" (handlerCode value))
  | "value" => some (lowerValue tag value)
  | "disabled" => some (lowerDisabled value)
  | "id" =>
    if isTextInput tag then some (.code "restorationId" value.code)
    else if hasKey then none
    else some (.code "key" ("Key(" ++ value.code ++ ")"))
  | "type" =>
    if tag = "input" then lowerInputType? value.describe
    else if row.roles.buttonLike then some (.comment "type" value.describe)
    else none
  | "src" =>
    if tag = "img" then
      some (.argument (.positional (match value with
        | .text s => .text s
        | other => .raw other.describe)))
    else none
  | "alt" => if tag = "img" then some (.code "semanticLabel" value.code) else none
  | "href" => if row.roles.navigational then some (.comment "href" value.describe) else none
  | "placeholder" => if isTextInput tag then some (lowerHint value) else none
  | _ => none

/-- What an attribute adds to the widget of a known element. -/
def lowerAttribute (row : ElementRow) (tag target : String) (hasKey : Bool) (attr : Node) :
    Noted Additions :=
  match attr with
  | ⟨.attr attrName, place, [given]⟩ =>
    let name := attrName.text
    let value := GivenValue.ofAttribute ⟨.attr attrName, place, [given]⟩
    if isClassAttribute name then lowerClass "" value
    else if name = "key" then return keyArgument value
    else
      match attributeRule? row tag hasKey name value with
      | some additions => return additions
      | none => do
        Noted.unmapped ("attribute " ++ name ++ " on <" ++ tag ++ "> has no lowering rule")
        return unhandled name value
  | ⟨.spread, _, [e]⟩ => lowerSpread target e
  | _ => return {}

/-- What attributes add, behind what was added before. -/
def lowerAttributes (row : ElementRow) (tag target : String) :
    List Node → Additions → Noted Additions
  | [], before => return before
  | attr :: rest, before => do
    let added ← lowerAttribute row tag target (Widget.hasKey "key" before.properties) attr
    lowerAttributes row tag target rest (before ++ added)

/-- The arguments that a row always adds, where no attribute has given them. -/
def extraArguments (row : ElementRow) (ps : List Property) : List Property :=
  row.extras.filterMap fun (key, code) =>
    if Widget.hasKey key ps then none else some (.named key (.raw code))

/-- What an attribute of a text inside another text adds to the outer widget. -/
def lowerNestedAttribute (tag target : String) (attr : Node) : Noted Additions :=
  match attr with
  | ⟨.attr attrName, place, [given]⟩ => do
    let name := attrName.text
    let value := GivenValue.ofAttribute ⟨.attr attrName, place, [given]⟩
    if isClassAttribute name then lowerClass ("<" ++ tag ++ "> ") value
    else
      Noted.unmapped
        ("attribute " ++ name ++ " on <" ++ tag ++ "> nested in " ++ target ++ " is not lowered")
      return unhandled ("<" ++ tag ++ "> " ++ name) value
  | ⟨.spread, _, [e]⟩ => lowerSpread target e
  | _ => return {}

/-- What the attributes of a text inside another text add. -/
def lowerNestedAttributes (tag target : String) : List Node → Noted Additions
  | [] => return {}
  | attr :: rest => do
    let added ← lowerNestedAttribute tag target attr
    let more ← lowerNestedAttributes tag target rest
    return added ++ more

end JsxWidgets
