import JsxWidgets.Proofs.Behaviour.HookRecords
import JsxWidgets.StateAnalysis

/-!
# What makes a state variable

Two constructs make state variables: a call of `useState`, wherever in the module it is, and a key
of the state of a class component. Both say how the variable is called and what it is at first
(`Module.stateEntries`). All other things that are recorded of a variable are found by following it
through the module.

Calls of hooks that the file defines change records that are there already, but they leave the
records of state alone. So the state variables of a module are its entries, in order
(`map_declaration_stateVariables`).
-/

namespace JsxWidgets

open Syntax Expression

/-! ### Entries -/

/-- The calls of `useState` in a module. -/
def Syntax.Module.stateCalls (m : Module) : List HookCall :=
  (HookCall.ofModule m).filter (·.name = "useState")

/-- The name that a call of `useState` gives to its variable, and the initial value. -/
def HookCall.stateEntry (c : HookCall) : String × Option Node :=
  ((Hook.stateNames c.pattern).1, argument? c.call 0)

/-- The keys of the initial state of the class that is the component, with their values. -/
def Syntax.Module.classEntries (m : Module) : List (String × Option Node) :=
  match m.component? with
  | some ⟨_, _, .classBody cls⟩ =>
    match StateVariable.initialState? cls with
    | some state => state.parts.filterMap StateVariable.stateEntry?
    | none => []
  | _ => []

/-- **What makes the state variables of a module**: their names and their initial values. -/
def Syntax.Module.stateEntries (m : Module) : List (String × Option Node) :=
  m.stateCalls.map HookCall.stateEntry ++ m.classEntries

/-- What a state variable is declared with. -/
structure Declaration where
  /-- The name. -/
  name : String
  /-- The initial value, or its summary. -/
  initialValue : Option Literal
  /-- The type of the initial value. -/
  inferredType : String

/-- What a state variable is declared with. -/
def StateVariable.declaration {π : Type} (v : StateVariable π) : Declaration :=
  ⟨v.name, v.initialValue, v.inferredType⟩

/-- The declaration of a variable with a name and an initial value. -/
def Declaration.ofEntry (entry : String × Option Node) : Declaration :=
  ⟨entry.1, entry.2.map snapshot, Expression.inferredType entry.2⟩

/-! ### Records of state -/

namespace Hook

/-- The record of state that a call makes, if it makes one. -/
def ofStateCall? (c : HookCall) : Option (StateHook Place) := (ofBuiltin? c).bind state?

/-- The record of state of a call of `useState`. -/
def stateHook (c : HookCall) : StateHook Place :=
  ⟨(stateNames c.pattern).1, (stateNames c.pattern).2, (argument? c.call 0).map snapshot,
    Expression.inferredType (argument? c.call 0), c.call.place⟩

/-- Calls of `useState`, and only those, make records of state. -/
theorem ofStateCall?_eq (c : HookCall) :
    ofStateCall? c = if c.name = "useState" then some (stateHook c) else none := by
  by_cases hname : c.name = "useState"
  · rw [if_pos hname, ofStateCall?, ofBuiltin?, hname]
    rfl
  · rw [if_neg hname, ofStateCall?, ofBuiltin?]
    split
    · contradiction
    all_goals rfl

end Hook

/-- The records of state of a module come from its calls of `useState`, in order. -/
theorem filterMap_state?_analyzeHooks (m : Module) :
    (analyzeHooks m).1.filterMap Hook.state? = m.stateCalls.map Hook.stateHook := by
  rw [filterMap_analyzeHooks fun _ => rfl, Module.stateCalls, ← List.filterMap_eq_map,
    List.filterMap_filter]
  refine List.filterMap_congr fun c _ => ?_
  rw [← Hook.ofStateCall?, Hook.ofStateCall?_eq]
  by_cases hname : c.name = "useState" <;> simp [hname]

/-! ### The variables of a module -/

theorem map_declaration_ofClassComponent (m : Module) :
    (StateVariable.ofClassComponent m).map StateVariable.declaration
      = m.classEntries.map Declaration.ofEntry := by
  rw [StateVariable.ofClassComponent, Module.classEntries]
  rcases m.component? with _ | ⟨name, kind, fn | fn | cls⟩
  · rfl
  · rfl
  · rfl
  · cases hstate : StateVariable.initialState? cls with
    | none => simp only [hstate, List.map_nil]
    | some state =>
      simp only [hstate, List.map_map]
      rfl

/-- **The state variables of a module** are declared as its entries say, in order. -/
theorem map_declaration_stateVariables (m : Module) (locate : Locator) :
    (analyzeState m locate).stateVariables.map StateVariable.declaration
      = m.stateEntries.map Declaration.ofEntry := by
  -- How places are told does not matter for declarations.
  have hmap : (analyzeState m locate).stateVariables.map StateVariable.declaration
      = (analyzeVariables m (analyzeHooks m).1).map StateVariable.declaration := by
    change List.map _ (List.map _ _) = _
    rw [List.map_map]
    rfl
  rw [hmap, analyzeVariables, List.map_append, map_declaration_ofClassComponent,
    filterMap_state?_analyzeHooks, List.map_map, List.map_map, Module.stateEntries,
    List.map_append, List.map_map]
  rfl

end JsxWidgets
