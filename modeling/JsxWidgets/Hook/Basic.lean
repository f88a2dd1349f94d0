import JsxWidgets.Literal

/-!
# Hooks

What is recorded of the calls of hooks. Places are told as a `π`.
-/

namespace JsxWidgets

/-- A call of `useState`. -/
structure StateHook (π : Type) where
  /-- The name of the variable. -/
  variableName : String
  /-- The name of its setter. -/
  setter : String
  /-- The initial value, or its summary. -/
  initialValue : Option Literal
  /-- The type of the initial value. -/
  inferredType : String
  /-- Where the call is. -/
  location : π
  deriving Repr, Inhabited

/-- What a call or an assignment does to the world. -/
inductive SideEffect where
  | apiCall | timer | eventListener | dom | storage | stateUpdate | logging
  deriving DecidableEq, Repr, Inhabited

/-- A call of one of the effect hooks. -/
structure EffectHook (π : Type) where
  /-- The hook. -/
  hook : String
  /-- What the effect depends on. -/
  dependencies : List String
  /-- Whether the dependencies are listed. -/
  hasDependencyArray : Bool
  /-- Whether the effect returns a cleanup. -/
  hasCleanup : Bool
  /-- What the effect does. -/
  sideEffects : List SideEffect
  /-- Where the call is. -/
  location : π
  deriving Repr, Inhabited

/-- A call of `useContext`. -/
structure ContextHook (π : Type) where
  /-- The context. -/
  contextName : Option String
  /-- Where the call is. -/
  location : π
  deriving Repr, Inhabited

/-- A call of `useRef`. -/
structure RefHook (π : Type) where
  /-- The name of the variable. -/
  name : Option String
  /-- The initial value, or its summary. -/
  initialValue : Option Literal
  /-- Where the call is. -/
  location : π
  deriving Repr, Inhabited

/-- A call of `useMemo` or `useCallback`. -/
structure CachedHook (π : Type) where
  /-- The name of the variable. -/
  name : Option String
  /-- What the value depends on. -/
  dependencies : List String
  /-- Where the call is. -/
  location : π
  deriving Repr, Inhabited

/-- A call of `useReducer`. -/
structure ReducerHook (π : Type) where
  /-- The reducer, or `inline` for a function written there. -/
  reducer : Option String
  /-- The initial state, or its summary. -/
  initialState : Option Literal
  /-- The name of the state. -/
  state : Option String
  /-- The name of the function that changes it. -/
  dispatch : Option String
  /-- Where the call is. -/
  location : π
  deriving Repr, Inhabited

/-- A hook that the file defines. -/
structure CustomHook (π : Type) where
  /-- The name. -/
  name : String
  /-- Where it is defined. -/
  definition : π
  /-- Where it is called. -/
  usages : List π
  deriving Repr, Inhabited

/-- A record of one or several calls of a hook. -/
inductive Hook (π : Type) where
  | state (h : StateHook π)
  | effect (h : EffectHook π)
  | context (h : ContextHook π)
  | ref (h : RefHook π)
  | memo (h : CachedHook π)
  | callback (h : CachedHook π)
  | reducer (h : ReducerHook π)
  | custom (h : CustomHook π)
  deriving Repr, Inhabited

namespace Hook

/-- Tells the places of a record in another way. -/
def map {π ρ : Type} (f : π → ρ) : Hook π → Hook ρ
  | .state h => .state ⟨h.variableName, h.setter, h.initialValue, h.inferredType, f h.location⟩
  | .effect h =>
    .effect ⟨h.hook, h.dependencies, h.hasDependencyArray, h.hasCleanup, h.sideEffects,
      f h.location⟩
  | .context h => .context ⟨h.contextName, f h.location⟩
  | .ref h => .ref ⟨h.name, h.initialValue, f h.location⟩
  | .memo h => .memo ⟨h.name, h.dependencies, f h.location⟩
  | .callback h => .callback ⟨h.name, h.dependencies, f h.location⟩
  | .reducer h => .reducer ⟨h.reducer, h.initialState, h.state, h.dispatch, f h.location⟩
  | .custom h => .custom ⟨h.name, f h.definition, h.usages.map f⟩

/-- The record of a state variable, if it is one. -/
def state? {π : Type} : Hook π → Option (StateHook π)
  | .state h => some h
  | _ => none

end Hook

end JsxWidgets
