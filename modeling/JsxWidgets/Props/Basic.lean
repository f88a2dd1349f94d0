import JsxWidgets.Expression.Kind
import JsxWidgets.Expression.Summary

/-!
# Properties

What is known of a property that a component takes. Places are told as a `π`.
-/

namespace JsxWidgets

open Syntax Expression

/-- A property of a component. -/
structure PropRecord (π : Type) where
  /-- The name. -/
  name : String
  /-- The type, as it is stated or as the default shows it. -/
  type : String
  /-- Whether it has to be given. -/
  required : Bool
  /-- The default, or its summary. -/
  defaultValue : Option Literal
  /-- Whether the default is written out in full. -/
  defaultIsLiteral : Bool
  /-- Where the property is used. -/
  usages : List π
  deriving Repr, Inhabited

namespace PropRecord

/-- A property with a possible default; without one its type is given. -/
def ofDefault {π : Type} (name type : String) (value : Option Node) : PropRecord π :=
  { name := name
    type := match value with
      | some e => inferredType (some e)
      | none => type
    required := value.isNone
    defaultValue := value.map snapshot
    defaultIsLiteral := value.any fun e => (literal? e).isSome
    usages := [] }

/-- Adds a usage. -/
def use {π : Type} (place : π) (r : PropRecord π) : PropRecord π :=
  { r with usages := r.usages ++ [place] }

/-- Tells the places of a property in another way. -/
def map {π ρ : Type} (f : π → ρ) (r : PropRecord π) : PropRecord ρ :=
  ⟨r.name, r.type, r.required, r.defaultValue, r.defaultIsLiteral, r.usages.map f⟩

/-- Changes the first property with a name. -/
def changeFirst {π : Type} (name : String) (change : PropRecord π → PropRecord π) :
    List (PropRecord π) → List (PropRecord π)
  | [] => []
  | r :: rest => if r.name = name then change r :: rest else r :: changeFirst name change rest

/-- The default of a part of a pattern. -/
def patternDefault? (pattern : Node) : Option Node :=
  match pattern with
  | ⟨.defaultPat, _, [_, e]⟩ => some e
  | _ => none

/-- The property that a part of an object pattern takes. -/
def ofPatternPart? {π : Type} (part : Node) : Option (PropRecord π) :=
  match part with
  | ⟨.patName name, _, [value]⟩ => some (ofDefault name "unknown" value.present?)
  | ⟨.patKeyed, _, [key, pattern]⟩ =>
    (keyName? key).map fun name => ofDefault name "unknown" (patternDefault? pattern)
  | ⟨.rest, _, ⟨.bind name, _, _⟩ :: _⟩ =>
    some { ofDefault name "object" none with required := false }
  | _ => none

/-- The properties that a parameter or a variable takes. -/
def ofPattern {π : Type} : Node → List (PropRecord π)
  | ⟨form, _, parts⟩ =>
    match form, parts with
    | .objectPat, ⟨_, _, patternParts⟩ :: _ => patternParts.filterMap ofPatternPart?
    | .bind name, _ => [ofDefault name "object" none]
    | .defaultPat, [inner, _] => ofPattern inner
    | _, _ => []

end PropRecord

end JsxWidgets
