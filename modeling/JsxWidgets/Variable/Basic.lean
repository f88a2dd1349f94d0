import JsxWidgets.Literal

/-!
# State variables

What is known of a variable that a component keeps. Places are told as a `π`.
-/

namespace JsxWidgets

/-- What a variable is read for. -/
inductive ReadContext where
  | jsx | callExpression | conditional | unknown
  deriving DecidableEq, Repr, Inhabited

/-- A read of a variable. -/
structure ReadLocation (π : Type) where
  /-- Where it is. -/
  location : π
  /-- What it is for. -/
  context : ReadContext
  deriving DecidableEq, Repr, Inhabited

/-- A variable handed on as an attribute. -/
structure PropPassing where
  /-- The tag of the element. -/
  host : String
  /-- The name of the attribute. -/
  name : String
  deriving DecidableEq, Repr, Inhabited

/-- A state variable. -/
structure StateVariable (π : Type) where
  /-- The name. -/
  name : String
  /-- The initial value, or its summary. -/
  initialValue : Option Literal
  /-- The type of the initial value. -/
  inferredType : String
  /-- The name of what changes it. -/
  setter : String
  /-- Where it is read. -/
  reads : List (ReadLocation π)
  /-- Where it is changed. -/
  updates : List π
  /-- Where it is handed on. -/
  passed : List PropPassing
  deriving Repr, Inhabited

/-- Tells the places of a variable in another way. -/
def StateVariable.map {π ρ : Type} (f : π → ρ) (v : StateVariable π) : StateVariable ρ :=
  { name := v.name
    initialValue := v.initialValue
    inferredType := v.inferredType
    setter := v.setter
    reads := v.reads.map fun r => ⟨f r.location, r.context⟩
    updates := v.updates.map f
    passed := v.passed }

end JsxWidgets
