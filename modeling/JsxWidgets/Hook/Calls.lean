import JsxWidgets.Expression.Kind
import JsxWidgets.Expression.Path
import JsxWidgets.Naming
import JsxWidgets.Syntax.Survey

/-!
# Calls of hooks

`HookCall.ofModule` lists the calls of hooks in a module. A call that is the value of a variable is
found together with the pattern that names its parts; what such a call calls is not looked at again.
-/

namespace JsxWidgets

open Syntax Expression

/-- A call of a hook. -/
structure HookCall where
  /-- The hook. -/
  name : String
  /-- What the value of the call is bound to. -/
  pattern : Option Node
  /-- The call. -/
  call : Node

namespace HookCall

/-- The hook that a call calls. -/
def hookName? (call : Node) : Option String := (calleeName? call).filter Naming.isHook

/-- The call of a hook whose value, possibly after waiting, an expression has. -/
def ofValue? : Node → Option (String × Node)
  | ⟨form, place, parts⟩ =>
    match form, parts with
    | .paren, [e] => ofValue? e
    | .asType, [e, _] => ofValue? e
    | .asConst, [e] => ofValue? e
    | .satisfies, [e, _] => ofValue? e
    | .nonNull, [e] => ofValue? e
    | .await, [e] => ofValue? e
    | .call, _ => (hookName? ⟨form, place, parts⟩).map fun name => (name, ⟨form, place, parts⟩)
    | _, _ => none

/-- The call of a hook whose value a variable has. -/
def ofDeclarator? (n : Node) : Option HookCall :=
  match n with
  | ⟨.declarator, _, [pattern, value]⟩ =>
    (ofValue? value).map fun (name, call) => ⟨name, some pattern, call⟩
  | _ => none

/-- Where a walk for calls of hooks stands. -/
inductive Position where
  /-- Anywhere. -/
  | free
  /-- On the way from a variable to the call that is its value. -/
  | declared
  deriving DecidableEq

/-- The calls of hooks at a node. -/
def note (position : Position) (n : Node) : List HookCall :=
  match position, n.form with
  | .free, .declarator => (ofDeclarator? n).toList
  | .free, .call => ((hookName? n).map fun name => ⟨name, none, n⟩).toList
  | _, _ => []

/-- How the parts of a node are entered. On the way to a call only the way is followed, and of the
call only the arguments are entered. -/
def enter (position : Position) (n : Node) (number : Nat) : Option Position :=
  match position with
  | .free =>
    if (ofDeclarator? n).isSome then if number = 1 then some .declared else none
    else some .free
  | .declared =>
    if n.form = .call then if number = 1 then some .free else none
    else if number = 0 then some .declared
    else none

/-- The walk. -/
def survey : Survey Position HookCall := ⟨note, enter⟩

/-- The calls of hooks in a module. -/
def ofModule (m : Module) : List HookCall := survey.runAll .free m

end HookCall

end JsxWidgets
