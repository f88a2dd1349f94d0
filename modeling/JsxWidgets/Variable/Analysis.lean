import JsxWidgets.Component
import JsxWidgets.Expression.Summary
import JsxWidgets.Hook.Basic
import JsxWidgets.Variable.Usage

/-!
# Analysis of state variables

The variables of hooks come first, in the order of their calls, then the keys of the state of a
class component. Each is followed through the whole module, or through its class.
-/

namespace JsxWidgets

open Syntax Expression

namespace StateVariable

/-- The variable of a hook in a module. -/
def ofHook (m : Module) (h : StateHook Place) : StateVariable Place :=
  let fs := Usage.findings (.hook h.variableName h.setter) m
  { name := h.variableName
    initialValue := h.initialValue
    inferredType := h.inferredType
    setter := h.setter
    reads := Usage.reads fs
    updates := Usage.updates fs
    passed := Usage.passings fs }

/-! ### Classes -/

/-- The object that an expression is. -/
def objectOf? (e : Node) : Option Node :=
  match e.unwrap.form with
  | .object => some e.unwrap
  | _ => none

/-- The object that a statement assigns to the state. -/
def assignedState? (statement : Node) : Option Node :=
  match statement with
  | ⟨.exprStmt, _, [e]⟩ =>
    match e.unwrap with
    | ⟨.assign _, _,
        [⟨.target, _, [⟨.member, _, [⟨.this, _, _⟩, ⟨.word "state", _, _⟩]⟩]⟩, value]⟩ =>
      objectOf? value
    | _ => none
  | _ => none

/-- The initial state that a member of a class gives. -/
def memberState? (member : Node) : Option Node :=
  match member with
  | ⟨.field, _, [⟨.word "state", _, _⟩, value, _]⟩ => objectOf? value
  | ⟨.maker, _, [_, ⟨.body, _, statements⟩]⟩ => statements.findSome? assignedState?
  | _ => none

/-- The initial state of a class. -/
def initialState? (cls : Node) : Option Node := (classMembers cls).findSome? memberState?

/-- A key of a state with its value. -/
def stateEntry? (property : Node) : Option (String × Option Node) :=
  match property with
  | ⟨.keyed, _, [key, value]⟩ => (keyName? key).map fun name => (name, some value)
  | ⟨.shorthand t, _, _⟩ => some (t, none)
  | _ => none

/-- The variable of a key in a class. -/
def ofClassKey (cls : Node) (entry : String × Option Node) : StateVariable Place :=
  let fs := Usage.findings (.classKey entry.1) [cls]
  { name := entry.1
    initialValue := entry.2.map snapshot
    inferredType := Expression.inferredType entry.2
    setter := "setState"
    reads := Usage.reads fs
    updates := Usage.updates fs
    passed := Usage.passings fs }

/-- The variables of the class that is the component of a module. -/
def ofClassComponent (m : Module) : List (StateVariable Place) :=
  match m.component? with
  | some ⟨_, _, .classBody cls⟩ =>
    match initialState? cls with
    | some state => (state.parts.filterMap stateEntry?).map (ofClassKey cls)
    | none => []
  | _ => []

end StateVariable

/-- **The state variables of a module** with the given hooks. -/
def analyzeVariables (m : Module) (hooks : List (Hook Place)) : List (StateVariable Place) :=
  (hooks.filterMap Hook.state?).map (StateVariable.ofHook m) ++ StateVariable.ofClassComponent m

end JsxWidgets
