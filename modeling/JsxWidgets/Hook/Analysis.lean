import JsxWidgets.Diagnostic
import JsxWidgets.Expression.Summary
import JsxWidgets.Hook.Calls
import JsxWidgets.Hook.SideEffects

/-!
# Analysis of hooks

Each call of a hook of the framework becomes a record of its own. All calls of a hook that the file
defines share one record, which stands where the first of them does. Calls of other hooks are only
reported.
-/

namespace JsxWidgets

open Syntax Expression

namespace Hook

/-! ### What a call is told apart by -/

/-- The name in a pattern that is a plain name. -/
def patternName? (pattern : Option Node) : Option String :=
  match pattern with
  | some ⟨.bind t, _, _⟩ => some t
  | _ => none

/-- The names of the first two parts of a pattern. A plain name stands for the first. -/
def pairNames (pattern : Option Node) : Option String × Option String :=
  match pattern with
  | some ⟨.arrayPat, _, ⟨_, _, items⟩ :: _⟩ => (patternName? items[0]?, patternName? items[1]?)
  | some ⟨.bind t, _, _⟩ => (some t, none)
  | _ => (none, none)

/-- The variable that a setter without a variable belongs to. -/
def variableOf (setter : String) : String :=
  let stem := (Text.dropStart? "set" setter).getD setter
  if stem.isEmpty then "state" else Text.uncapitalize stem

/-- The names of a state variable and its setter; a missing one is made up from the other. -/
def stateNames (pattern : Option Node) : String × String :=
  match pairNames pattern with
  | (some name, some setter) => (name, setter)
  | (some name, none) => (name, Naming.setterOf name)
  | (none, some setter) => (variableOf setter, setter)
  | (none, none) => ("state", Naming.setterOf "state")

/-- The path of an expression, else its summary. -/
def pathOrSummary (e : Node) : String := (path? e).getD (summary e)

/-- The dependencies in an argument, if they are listed. -/
def dependencies? (arg : Option Node) : Option (List String) :=
  match arg.map Node.unwrap with
  | some ⟨.array, _, items⟩ =>
    some ((items.filter (·.form ≠ .hole)).map fun item => pathOrSummary (itemValue item))
  | _ => none

/-- Whether a statement returns something else than null. -/
def returnsValue (statement : Node) : Bool :=
  match statement with
  | ⟨.give, _, [⟨.absent, _, _⟩]⟩ => false
  | ⟨.give, _, [e]⟩ => e.unwrap.form ≠ .null
  | _ => false

/-- Whether the callback of an effect returns a cleanup. -/
def hasCleanup (callback : Option Node) : Bool :=
  match callback.map Node.unwrap with
  | some ⟨.arrow, _, _ :: ⟨.body, _, statements⟩ :: _⟩ => statements.any returnsValue
  | some ⟨.arrow, _, _ :: e :: _⟩ => isFunction e
  | some ⟨.functionExpr, _, [_, ⟨.fn, _, _ :: ⟨.body, _, statements⟩ :: _⟩]⟩ =>
    statements.any returnsValue
  | _ => false

/-- The reducer in an argument. -/
def reducerName (e : Node) : String := if isFunction e then "inline" else pathOrSummary e.unwrap

/-- The record of a call of a hook of the framework. -/
def ofBuiltin? (c : HookCall) : Option (Hook Place) :=
  let first := argument? c.call 0
  let second := argument? c.call 1
  let place := c.call.place
  let deps := dependencies? second
  match c.name with
  | "useState" =>
    let (name, setter) := stateNames c.pattern
    some (.state ⟨name, setter, first.map snapshot, inferredType first, place⟩)
  | "useEffect" | "useLayoutEffect" | "useInsertionEffect" =>
    -- the effect keeps apart an empty list of dependencies and none at all
    some (.effect ⟨c.name, deps.getD [], deps.isSome, hasCleanup first,
      first.elim [] SideEffect.ofExpr, place⟩)
  | "useContext" => some (.context ⟨first.map pathOrSummary, place⟩)
  | "useRef" => some (.ref ⟨patternName? c.pattern, first.map snapshot, place⟩)
  | "useMemo" => some (.memo ⟨patternName? c.pattern, deps.getD [], place⟩)
  | "useCallback" => some (.callback ⟨patternName? c.pattern, deps.getD [], place⟩)
  | "useReducer" =>
    let (current, dispatch) := pairNames c.pattern
    some (.reducer ⟨first.map reducerName, second.map snapshot, current, dispatch, place⟩)
  | _ => none

/-! ### Hooks that the file defines -/

/-- The hook that a node defines, and where. -/
def definition? (n : Node) : Option (String × Place) :=
  match n with
  | ⟨.fnDecl, _, ⟨.binder name, place, _⟩ :: _⟩ =>
    if Naming.isHook name then some (name, place) else none
  | ⟨.declarator, _, [⟨.bind name, place, _⟩, value]⟩ =>
    if Naming.isHook name && isFunction value then some (name, place) else none
  | _ => none

/-- Hooks with the places of their definitions, first ones first. -/
abbrev Definitions := List (String × Place)

/-- The hooks that a module defines. -/
def definitions (m : Module) : Definitions := m.nodes.filterMap definition?

/-- Where a hook is defined. -/
def Definitions.get? (ds : Definitions) (name : String) : Option Place :=
  (ds.find? fun d => d.1 = name).map (·.2)

/-- Whether a record is that of the custom hook with a name. -/
def isCustomOf {π : Type} (name : String) : Hook π → Bool
  | .custom h => h.name = name
  | _ => false

/-- Adds a usage to the record of a custom hook. -/
def addUsage {π : Type} (name : String) (place : π) : Hook π → Hook π
  | .custom h => .custom (if h.name = name then { h with usages := h.usages ++ [place] } else h)
  | other => other

/-- Adds a call to the records. -/
def record (ds : Definitions) (records : List (Hook Place)) (c : HookCall) : List (Hook Place) :=
  match ofBuiltin? c with
  | some h => records ++ [h]
  | none =>
    match ds.get? c.name with
    | none => records
    | some place =>
      if records.any (isCustomOf c.name) then records.map (addUsage c.name c.call.place)
      else records ++ [.custom ⟨c.name, place, [c.call.place]⟩]

/-- The hooks that are called but neither belong to the framework nor are defined in the file. -/
def undefinedNames (ds : Definitions) (calls : List HookCall) : List String :=
  Text.firstOccurrences <| (calls.filter fun c =>
    (ofBuiltin? c).isNone && (ds.get? c.name).isNone).map (·.name)

/-- What is said about a hook without a definition. -/
def undefinedDiagnostic (name : String) : Diagnostic Place :=
  ⟨.unmappedConstruct, "hook " ++ name ++ " has no definition in this file; usage not recorded",
    none⟩

end Hook

/-- **The hooks of a module**, and what could not be recorded. -/
def analyzeHooks (m : Module) : List (Hook Place) × List (Diagnostic Place) :=
  let ds := Hook.definitions m
  let calls := HookCall.ofModule m
  (calls.foldl (Hook.record ds) [], (Hook.undefinedNames ds calls).map Hook.undefinedDiagnostic)

end JsxWidgets
