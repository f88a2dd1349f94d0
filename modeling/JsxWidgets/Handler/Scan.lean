import JsxWidgets.Expression.Path
import JsxWidgets.Expression.Summary
import JsxWidgets.FunctionIndex
import JsxWidgets.Syntax.Survey
import JsxWidgets.Text.Order
import JsxWidgets.Variable.Basic

/-!
# What a handler does

What is recorded of an attribute that handles an event, and the scan that finds out what the handler
does. The scan is shallow: functions inside the handler are not looked into, and neither are calls
in the arguments of a call. Places are told as a `π`.
-/

namespace JsxWidgets

/-- What a handler does. -/
inductive HandlerAction where
  | setState | apiCall | navigation
  deriving DecidableEq, Repr, Inhabited

/-- An attribute that handles an event. -/
structure EventHandler (π : Type) where
  /-- The name of the function, or what it is written as. -/
  name : String
  /-- The event. -/
  eventType : String
  /-- The tag of the element. -/
  element : String
  /-- The state variables that the handler uses. -/
  usesState : List String
  /-- What it does. -/
  actions : List HandlerAction
  /-- Where the attribute is. -/
  location : π
  deriving Repr, Inhabited

/-- Tells the place of a handler in another way. -/
def EventHandler.map {π ρ : Type} (f : π → ρ) (h : EventHandler π) : EventHandler ρ :=
  ⟨h.name, h.eventType, h.element, h.usesState, h.actions, f h.location⟩

namespace Handler

open Syntax Expression

/-- What a scan finds. -/
inductive Finding where
  /-- A state variable is used. -/
  | uses (name : String)
  /-- Something is done. -/
  | acts (action : HandlerAction)

/-- The names that a scan knows: each state variable with its setter. -/
abbrev Variables := List (String × String)

/-- The names of state variables. -/
def namesOf {π : Type} (stateVariables : List (StateVariable π)) : Variables :=
  stateVariables.map fun v => (v.name, v.setter)

/-- Whether one of some pieces occurs in a text. -/
def mentions (pieces : List String) (lower : String) : Bool :=
  pieces.any fun piece => Text.contains piece lower

/-- What a call does, by the text of what it calls. -/
def calleeFindings (vars : Variables) (text : String) : List Finding :=
  let last := lastName text
  let lower := Text.lowercaseAscii text
  match vars.find? (·.2 = last) with
  | some (name, _) => if last = "setState" then [.acts .setState] else [.acts .setState, .uses name]
  | none =>
    if last = "setState" then [.acts .setState]
    else if mentions ["api", "fetch", "axios"] lower then [.acts .apiCall]
    else if mentions ["router", "navigate", "navigation"] lower then [.acts .navigation]
    else []

/-- What a call does. -/
def callFindings (vars : Variables) (call : Node) : List Finding :=
  match call with
  | ⟨.call, _, ⟨.superCallee, _, _⟩ :: _⟩ => []
  | ⟨.call, _, ⟨.importCallee, _, _⟩ :: _⟩ => []
  | ⟨.call, _, callee :: _⟩ => calleeFindings vars ((path? callee).getD (summary callee))
  | _ => []

/-- What an identifier shows. -/
def nameFindings (vars : Variables) (t : String) : List Finding :=
  match vars.find? fun v => v.1 = t || v.2 = t with
  | some (name, setter) => .uses name :: (if setter = t then [.acts .setState] else [])
  | none => []

/-- The key of the state of the class that an access reads. -/
def stateKey? (n : Node) : Option String :=
  let keyOf (object selector : Node) : Option String :=
    match path? object, selector.form with
    | some "this.state", .word t => some t
    | some path, _ => (Text.dropStart? "this.state." path).map (Text.firstSegment (· = '.'))
    | none, _ => none
  match n with
  | ⟨.member, _, [object, selector]⟩ => keyOf object selector
  | ⟨.optMember, _, [object, selector]⟩ => keyOf object selector
  | _ => none

/-- What is found at a node, inside the arguments of a call or not. -/
def note (vars : Variables) (inArguments : Bool) (n : Node) : List Finding :=
  match n.form with
  | .call => if inArguments then [] else callFindings vars n
  | .member | .optMember =>
    match stateKey? n with
    | some key => if vars.any (·.1 = key) then [.uses key] else []
    | none => []
  | form =>
    match form.identifier? with
    | some t => nameFindings vars t
    | none => []

/-- How the parts of a node are entered. -/
def enter (inArguments : Bool) (n : Node) (number : Nat) : Option Bool :=
  match n.form with
  | .arrow | .fn => none
  | .call => if !inArguments && number = 1 then some true else none
  | _ => if (stateKey? n).isSome then none else some inArguments

/-- The scan. -/
def survey (vars : Variables) : Survey Bool Finding := ⟨note vars, enter⟩

/-- The state variables that a handler uses, and what it does. -/
def scan (vars : Variables) (body : FunctionBody) : List String × List HandlerAction :=
  let fs := (survey vars).runAll false body.roots
  (Text.firstOccurrences (fs.filterMap fun f =>
      match f with
      | .uses name => some name
      | _ => none),
    Text.firstOccurrences (fs.filterMap fun f =>
      match f with
      | .acts action => some action
      | _ => none))

end Handler

end JsxWidgets
