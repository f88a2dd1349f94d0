import JsxWidgets.Decimal.Shortest
import JsxWidgets.Naming
import JsxWidgets.Syntax.Survey

/-!
# Stated types

`typeText` writes a type in one line. `TypeRow` is what an interface or an object type says about
one of its members, and `typeRows` lists what the types of a module say that are named like types of
properties.
-/

namespace JsxWidgets

open Syntax

/-- The words that are written as they are when they stand for a type. -/
def plainTypeWords : List String :=
  ["string", "number", "boolean", "any", "unknown", "void", "null", "undefined", "object", "never",
   "bigint", "symbol"]

mutual

/-- The text of a type. -/
def typeText : Node → String
  | ⟨form, _, parts⟩ =>
    match form, parts with
    | .keyword word, _ => if plainTypeWords.contains word then word else "unknown"
    | .reference, [⟨.entity name, _, _⟩, ⟨_, _, []⟩] => name.text
    | .reference, [⟨.entity name, _, _⟩, ⟨_, _, args⟩] =>
      name.text ++ "<" ++ ", ".intercalate (typeTexts args) ++ ">"
    | .arrayType, [item] => typeText item ++ "[]"
    | .unionType, types => " | ".intercalate (typeTexts types)
    | .interType, types => " & ".intercalate (typeTexts types)
    | .stringType v, _ => "\"" ++ v ++ "\""
    | .numberType negative v, _ => (if negative then "-" else "") ++ v.positional
    | .boolType v, _ => if v then "true" else "false"
    | .literalType, _ => "literal"
    | .fnType, [⟨_, _, params⟩, _, result] =>
      "(" ++ ", ".intercalate (parameterTexts params) ++ ") => " ++ typeText result
    | .parenType, [type] => typeText type
    | .tupleType, items => "[" ++ ", ".intercalate (typeTexts items) ++ "]"
    | .tupleItem, [_, type] => typeText type
    | .objectType, _ => "object"
    | _, _ => "unknown"

/-- The texts of several types. -/
def typeTexts : List Node → List String
  | [] => []
  | t :: ts => typeText t :: typeTexts ts

/-- The texts of the parameters of a function type. -/
def parameterTexts : List Node → List String
  | [] => []
  | ⟨.bind name, _, [⟨.absent, _, _⟩]⟩ :: rest => name :: parameterTexts rest
  | ⟨.bind name, _, [type]⟩ :: rest => (name ++ ": " ++ typeText type) :: parameterTexts rest
  | _ :: rest => "…" :: parameterTexts rest

end

/-- What a type says about a member. -/
structure TypeRow where
  /-- The name of the member. -/
  name : String
  /-- Its type. -/
  type : String
  /-- Whether it may be left out. -/
  isOptional : Bool
  deriving DecidableEq, Repr, Inhabited

namespace TypeRow

/-- The text of a stated type; without one nothing is known. -/
def textOf (type : Node) : String :=
  match type.form with
  | .absent => "unknown"
  | _ => typeText type

/-- What a member of an object type says. -/
def ofMember? (member : Node) : Option TypeRow :=
  match member with
  | ⟨.propertySig isOptional, _, [key, type]⟩ =>
    match key.unwrap.form with
    | .name t | .string t => some ⟨t, textOf type, isOptional⟩
    | _ => none
  | ⟨.methodSig isOptional, _, key :: _⟩ =>
    match key.unwrap.form with
    | .name t => some ⟨t, "function", isOptional⟩
    | _ => none
  | _ => none

/-- What the type of a parameter says, if it is an object type that stands there. -/
def ofPattern : Node → List TypeRow
  | ⟨form, _, parts⟩ =>
    match form, parts with
    | .objectPat, [_, ⟨.objectType, _, members⟩] => members.filterMap ofMember?
    | .bind _, [⟨.objectType, _, members⟩] => members.filterMap ofMember?
    | .defaultPat, [inner, _] => ofPattern inner
    | _, _ => []

/-- What a declaration says, if it is named like a type of properties. -/
def ofDeclaration (n : Node) : List TypeRow :=
  match n with
  | ⟨.interface, _, [⟨.binder name, _, _⟩, _, _, ⟨_, _, members⟩]⟩ =>
    if Naming.isPropsType name then members.filterMap ofMember? else []
  | ⟨.typeName, _, [⟨.binder name, _, _⟩, _, ⟨.objectType, _, members⟩]⟩ =>
    if Naming.isPropsType name then members.filterMap ofMember? else []
  | _ => []

/-- The walk to the types of properties. It does not look into the declaration of a type, where
further ones may stand in the functions of computed keys. -/
def survey : Survey Unit TypeRow where
  note _ n := ofDeclaration n
  enter _ n _ :=
    match n.form with
    | .interface | .typeName => none
    | _ => some ()

end TypeRow

/-- What the types of properties in a module say, in order. -/
def typeRows (m : Module) : List TypeRow := TypeRow.survey.runAll () m

end JsxWidgets
