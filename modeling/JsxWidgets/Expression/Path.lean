import JsxWidgets.Decimal.Shortest
import JsxWidgets.Text.Segment
import JsxWidgets.Syntax.Node

/-!
# Paths of members

`path?` is the text of a chain of accesses by fixed names, such as `props.items[0].title`. Calls are
told apart by the path of what they call.
-/

namespace JsxWidgets.Expression

open Syntax

/-- What a fixed selector adds to the path of its object. -/
def selectorText? (selector : Node) : Option String :=
  match selector with
  | ⟨.word t, _, _⟩ => some ("." ++ t)
  | ⟨.computed, _, [key]⟩ =>
    match key.unwrap.form with
    | .string v => some ("[\"" ++ v ++ "\"]")
    | .number v => some ("[" ++ v.positional ++ "]")
    | _ => none
  | _ => none

/-- The text of a chain of accesses that starts with a name or the current object. -/
def path? : Node → Option String
  | ⟨form, _, parts⟩ =>
    match form, parts with
    | .paren, [e] => path? e
    | .asType, [e, _] => path? e
    | .asConst, [e] => path? e
    | .satisfies, [e, _] => path? e
    | .nonNull, [e] => path? e
    | .name t, _ => some t
    | .this, _ => some "this"
    | .member, [object, selector] =>
      match path? object, selectorText? selector with
      | some front, some step => some (front ++ step)
      | _, _ => none
    | _, _ => none

/-- The last name of a dotted path. -/
def lastName (path : String) : String := Text.lastSegment (· = '.') path

/-- The path of what a call calls. -/
def calleePath? (call : Node) : Option String :=
  match call with
  | ⟨.call, _, callee :: _⟩ => path? callee
  | _ => none

/-- The last name of what a call calls. -/
def calleeName? (call : Node) : Option String := (calleePath? call).map lastName

/-- The arguments of a call, marked as single items or as spreads. -/
def arguments (call : Node) : List Node :=
  match call with
  | ⟨.call, _, [_, ⟨.list, _, args⟩, _]⟩ => args
  | _ => []

/-- The expression in an argument or an item. -/
def itemValue : Node → Node
  | ⟨.item, _, [e]⟩ => e
  | ⟨.spread, _, [e]⟩ => e
  | n => n

/-- The expression in an argument of a call, counted from zero. -/
def argument? (call : Node) (i : Nat) : Option Node := ((arguments call)[i]?).map itemValue

end JsxWidgets.Expression
