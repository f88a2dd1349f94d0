import JsxWidgets.Expression.Path
import JsxWidgets.Hook.Basic
import JsxWidgets.Naming
import JsxWidgets.Syntax.Survey
import JsxWidgets.Text.Order

/-!
# Side effects

What the callback of an effect does, told by the paths of the calls and of the assignments in it.
-/

namespace JsxWidgets.SideEffect

open Syntax Expression

/-- What the end or the beginning of a path says about a call. -/
def byPlace? (path : String) : Option SideEffect :=
  let lower := Text.lowercaseAscii path
  let last := lastName path
  if ["setTimeout", "setInterval", "requestAnimationFrame"].contains last then some .timer
  else if ["addEventListener", "removeEventListener"].contains last then some .eventListener
  else if Text.startsWith "localstorage." lower || Text.startsWith "sessionstorage." lower then
    some .storage
  else if Text.startsWith "console." lower then some .logging
  else if Text.startsWith "document." lower || Text.startsWith "window." lower then some .dom
  else if Naming.isSetter last then some .stateUpdate
  else none

/-- Whether a path is that of a request. -/
def isRequest (path : String) : Bool :=
  let lower := Text.lowercaseAscii path
  ["fetch", "axios", "api"].any fun piece => Text.contains piece lower

/-- What a call of a path does. -/
def ofCall (path : String) : List SideEffect :=
  (if isRequest path then [.apiCall] else []) ++ (byPlace? path).toList

/-- What an assignment to a member of a path does. -/
def ofAssignment (path : String) : List SideEffect :=
  if Text.startsWith "document" path || Text.startsWith "window" path then [.dom] else []

/-- What a node does by itself. -/
def ofNode (n : Node) : List SideEffect :=
  match n with
  | ⟨.call, _, _⟩ => (calleePath? n).elim [] ofCall
  | ⟨.assign _, _, ⟨.target, _, [⟨.member, _, object :: _⟩]⟩ :: _⟩ =>
    (path? object).elim [] ofAssignment
  | _ => []

/-- What an expression does, in the order of the first occurrence. -/
def ofExpr (e : Node) : List SideEffect := Text.firstOccurrences (e.nodes.flatMap ofNode)

end JsxWidgets.SideEffect
