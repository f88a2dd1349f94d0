import JsxWidgets.Composition
import JsxWidgets.Handler.Analysis
import JsxWidgets.Hook.Analysis
import JsxWidgets.Props.Analysis
import JsxWidgets.Syntax.Location
import JsxWidgets.Variable.Analysis

/-!
# Analysis of behaviour

Hooks, properties, state variables, event handlers and composition of a module together. The
analyses speak of places; `StateAnalysis.map` tells all places in another way, so that what is found
cannot depend on how places are told.
-/

namespace JsxWidgets

open Syntax

/-- What is known of the behaviour of a module. -/
structure StateAnalysis (π : Type) where
  /-- The hooks. -/
  hooks : List (Hook π)
  /-- The properties of the component. -/
  props : List (PropRecord π)
  /-- The state variables. -/
  stateVariables : List (StateVariable π)
  /-- The event handlers. -/
  handlers : List (EventHandler π)
  /-- The uses of components. -/
  composition : List (CompositionRecord π)
  /-- What could not be recorded. -/
  diagnostics : List (Diagnostic π)
  deriving Repr, Inhabited

namespace StateAnalysis

/-- Whether the component keeps state. -/
def hasState {π : Type} (a : StateAnalysis π) : Bool := !a.stateVariables.isEmpty

/-- Tells all places in another way. -/
def map {π ρ : Type} (f : π → ρ) (a : StateAnalysis π) : StateAnalysis ρ :=
  { hooks := a.hooks.map (·.map f)
    props := a.props.map (·.map f)
    stateVariables := a.stateVariables.map (·.map f)
    handlers := a.handlers.map (·.map f)
    composition := a.composition.map (·.map f)
    diagnostics := a.diagnostics.map (·.map f) }

end StateAnalysis

/-- The behaviour of a module, with places as they are. -/
def analyzePlaces (m : Module) : StateAnalysis Place :=
  let (hooks, hookDiagnostics) := analyzeHooks m
  let stateVariables := analyzeVariables m hooks
  let (handlers, handlerDiagnostics) := analyzeHandlers m stateVariables
  { hooks := hooks
    props := analyzeProps m
    stateVariables := stateVariables
    handlers := handlers
    composition := analyzeComposition m
    diagnostics := hookDiagnostics ++ handlerDiagnostics }

/-- **The behaviour of a module**, with its places told by a locator. -/
def analyzeState (m : Module) (locate : Locator) : StateAnalysis Location :=
  (analyzePlaces m).map locate

end JsxWidgets
