import JsxWidgets.Composition
import JsxWidgets.Proofs.Places.Functions
import JsxWidgets.Proofs.Places.Handlers
import JsxWidgets.Proofs.Places.Hooks
import JsxWidgets.Proofs.Places.Properties
import JsxWidgets.Proofs.Places.Variables
import JsxWidgets.StateAnalysis

/-!
# Locations do not influence the analysis

The analysis of behaviour may be run with the text at hand or without it. Without it only the offset
of a location is known, and nothing else is different (`analyzeState_copies_places`).

That places are told at the very end would not be worth much if the analysis went by places on its
way: it joins reads to variables, usages to definitions and handlers to functions, and it drops what
it has already. So it is shown, too, that it only copies places. In a module in which everything
stands somewhere else it finds the same, in the same order, at the other places; the passes follow a
move one by one, and each is handed what the passes before it have found.
-/

namespace JsxWidgets

open Syntax

/-! ### Telling places twice -/

section Telling

variable {π ρ σ : Type} (f : π → ρ) (g : ρ → σ)

theorem Diagnostic.map_map (d : Diagnostic π) : (d.map f).map g = d.map (g ∘ f) := by
  rw [Diagnostic.map, Diagnostic.map, Diagnostic.map, Option.map_map]

theorem Hook.map_map (h : Hook π) : (h.map f).map g = h.map (g ∘ f) := by
  cases h
  case custom h => simp only [Hook.map, List.map_map, Function.comp_apply]
  all_goals rfl

theorem PropRecord.map_map (r : PropRecord π) : (r.map f).map g = r.map (g ∘ f) := by
  simp only [PropRecord.map, List.map_map]

theorem StateVariable.map_map (v : StateVariable π) : (v.map f).map g = v.map (g ∘ f) := by
  simp only [StateVariable.map, List.map_map, Function.comp_def]

/-- **Places told twice** are told once by both. -/
theorem StateAnalysis.map_map (a : StateAnalysis π) : (a.map f).map g = a.map (g ∘ f) := by
  simp only [StateAnalysis.map, List.map_map, Function.comp_def, Hook.map_map,
    PropRecord.map_map, StateVariable.map_map, Diagnostic.map_map]
  rfl

end Telling

/-! ### Locations without lines -/

namespace Syntax.Location

/-- A location without its line and its column. -/
def offsetOnly (l : Location) : Location := ⟨0, 0, l.offset⟩

/-- A walk through the text does not change the offset. -/
theorem offset_walk (offset : Nat) (chars : List Char) (bytes line column : Nat) :
    (walk offset chars bytes line column).offset = offset := by
  induction chars generalizing bytes line column with
  | nil => rfl
  | cons c rest ih =>
    rw [walk]
    split
    · rfl
    · dsimp only
      split
      · exact ih ..
      · exact ih ..

/-- Without its line and its column a location is what is known of the place without the text. -/
theorem offsetOnly_ofPlace (source : List Char) (place : Place) :
    (ofPlace source place).offsetOnly = ofPlaceOnly place := by
  rw [ofPlace]
  split
  · next h => rw [h]; rfl
  · rw [offsetOnly, offset_walk]
    rfl

end Syntax.Location

/-! ### The composition of a moved module

A use of a component is recorded with the place of its opening tag; everything else in the record is
a name, a kind or a summary. -/

section Uses

open Syntax.Node Expression

variable {f : Place → Place}

theorem Syntax.AttributeValue.kind_relocate (value : AttributeValue) :
    (value.relocate f).kind = value.kind := by
  cases value with
  | expression e => exact Expression.kind_relocate e
  | missing | quoted text | emptyBraces | markup n => rfl

theorem Syntax.Node.tag?_relocate (element : Node) : (element.relocate f).tag? = element.tag? := by
  obtain ⟨form, place, parts⟩ := element
  cases form
  case element =>
    match parts with
    | [] => rfl
    | ⟨form, _, _⟩ :: _ => cases form <;> rfl
  all_goals rfl

theorem Syntax.Node.opening?_relocate (element : Node) :
    (element.relocate f).opening? = element.opening?.map (Node.relocate f) := by
  obtain ⟨form, place, parts⟩ := element
  cases form
  case element => cases parts <;> rfl
  all_goals rfl

namespace Composition

theorem isCallback_relocate (index : FunctionIndex) (e : Node) :
    isCallback (index.relocate f) (e.relocate f) = isCallback index e := by
  have hcontains : (index.relocate f).contains = index.contains :=
    funext (FunctionIndex.contains_relocate index)
  unfold isCallback
  rw [unwrap_relocate, form_relocate, path?_relocate, hcontains]

theorem valueText_relocate (index : FunctionIndex) (value : AttributeValue) :
    valueText (index.relocate f) (value.relocate f) = valueText index value := by
  cases value with
  | expression e => exact congrArg₂ Prod.mk (summary_relocate e) (isCallback_relocate index e)
  | markup n => exact congrArg (·, false) (markupSummary_relocate n)
  | missing | quoted text | emptyBraces => rfl

theorem composedProp?_relocate (index : FunctionIndex) (n : Node) :
    composedProp? (index.relocate f) (n.relocate f) = composedProp? index n := by
  have hvalue := attributeValue_relocate (f := f) n
  obtain ⟨form, place, parts⟩ := n
  cases form
  case spread =>
    match parts with
    | [e] =>
      exact congrArg (fun text => some (ComposedProp.mk "..." .object text false))
        (summary_relocate e)
    | [] | _ :: _ :: _ => rfl
  case attr name =>
    rw [relocate] at hvalue ⊢
    rw [composedProp?, composedProp?, hvalue, valueText_relocate, AttributeValue.kind_relocate]
  all_goals rfl

theorem component?_relocate (n : Node) : component? (n.relocate f) = component? n := by
  rw [component?, component?, tag?_relocate]

/-- The walk of a moved module follows the move. -/
theorem survey_follows (index : FunctionIndex) (parent : Option String) :
    Survey.Follows f (CompositionRecord.map f) (survey index parent)
      (survey (index.relocate f) parent) where
  -- the record is made of the component, its parent and the attributes, none of which moves
  note around n := by
    change note (index.relocate f) parent around (n.relocate f)
      = (note index parent around n).map (CompositionRecord.map f)
    rw [note, note, component?_relocate, opening?_relocate]
    cases component? n with
    | none => rfl
    | some child =>
      cases n.opening? with
      | none => rfl
      | some o =>
        simp only [Option.map_some, attributes_relocate, relocates_eq_map, List.filterMap_map,
          Function.comp_def, composedProp?_relocate, place_relocate]
        rfl
  enter around n number := by
    change some ((component? (n.relocate f)).or around) = some ((component? n).or around)
    rw [component?_relocate]

end Composition

/-- **The uses of components in a moved module** are those in the module, moved. -/
theorem analyzeComposition_relocate (m : Module) :
    analyzeComposition (m.relocate f) = (analyzeComposition m).map (CompositionRecord.map f) := by
  have hparent : (m.relocate f).component?.bind (·.name) = m.component?.bind (·.name) := by
    rw [JsxWidgets.component?_relocate]
    cases m.component? <;> rfl
  rw [analyzeComposition, analyzeComposition, hparent, FunctionIndex.ofModule_relocate]
  exact (Composition.survey_follows _ _).runAll none m

end Uses

/-! ### The analysis of a moved module -/

/-- **The analysis only copies places**: in a moved module it finds the same, moved. -/
theorem analyzePlaces_relocate (move : Relocation) (m : Module) :
    analyzePlaces (m.relocate move.target) = (analyzePlaces m).map move.target := by
  -- Variables are those of the hooks, and handlers are scanned for the variables.
  have hhooks := analyzeHooks_relocate (f := move.target) m
  have hvariables := analyzeVariables_relocate move.target_zero m (analyzeHooks m).1
  have hhandlers := analyzeHandlers_relocate (f := move.target) m
    (analyzeVariables m (analyzeHooks m).1)
  simp only [analyzePlaces, hhooks, hvariables, hhandlers, analyzeProps_relocate,
    analyzeComposition_relocate, StateAnalysis.map, List.map_append]

/-- **Locations never influence the analysis.** Run without the text it gives what it gives with
the text, in the same order, except that of each location only the offset is known. And what a place
is has no influence either: with everything moved, it finds the same at the places moved to. -/
theorem analyzeState_copies_places (m : Module) :
    (∀ source : List Char,
      analyzeState m Location.ofPlaceOnly
        = (analyzeState m (Location.ofPlace source)).map Location.offsetOnly) ∧
      ∀ (move : Relocation) (locate : Locator),
        analyzeState (m.relocate move.target) locate
          = analyzeState m (fun place => locate (move.target place)) := by
  constructor
  · intro source
    have htold : Location.offsetOnly ∘ Location.ofPlace source = Location.ofPlaceOnly :=
      funext (Location.offsetOnly_ofPlace source)
    rw [analyzeState, analyzeState, StateAnalysis.map_map, htold]
  · intro move locate
    rw [analyzeState, analyzeState, analyzePlaces_relocate, StateAnalysis.map_map]
    rfl

-- A call at the first character, moved by ten.
example : (analyzePlaces (Module.relocate (fun place => if place = 0 then 0 else place + 10)
    [⟨.call, 1, [.leaf (.name "useRef") 1, .list [], .list []]⟩])).hooks.map
      (fun h => match h with | .ref r => r.location | _ => 0) = [11] := by
  decide

end JsxWidgets
