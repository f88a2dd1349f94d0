import JsxWidgets.Handler.Analysis
import JsxWidgets.Proofs.Places.Functions
import JsxWidgets.Proofs.Places.Variables

/-!
# The event handlers of a moved module

A handler is resolved by its name in the index of functions, and what it does is told by names. The
scan of its body finds the same in a moved body.
-/

namespace JsxWidgets

open Syntax Syntax.Node Expression

variable {f : Place → Place}

namespace Handler

/-! ### What a handler does -/

/-- The call of a parent class and an import are passed over. -/
theorem callFindings_call (vars : Variables) (place : Place) (callee : Node) (rest : List Node) :
    callFindings vars ⟨.call, place, callee :: rest⟩ =
      match callee.form with
      | .superCallee | .importCallee => []
      | _ => calleeFindings vars ((path? callee).getD (summary callee)) := by
  obtain ⟨form, p, parts⟩ := callee
  cases form <;> rfl

theorem callFindings_relocate (vars : Variables) (call : Node) :
    callFindings vars (call.relocate f) = callFindings vars call := by
  obtain ⟨form, place, parts⟩ := call
  cases form
  case call =>
    cases parts with
    | nil => rfl
    | cons callee rest =>
      rw [relocate, relocates, callFindings_call, callFindings_call, form_relocate, path?_relocate,
        summary_relocate]
  all_goals rfl

theorem stateKey?_relocate (n : Node) : stateKey? (n.relocate f) = stateKey? n := by
  obtain ⟨form, place, parts⟩ := n
  cases form
  case member | optMember =>
    match parts with
    | [object, selector] =>
      simp only [relocate, relocates, stateKey?, path?_relocate, form_relocate]
    | [] | [_] | _ :: _ :: _ :: _ => rfl
  all_goals rfl

/-- The scan follows every move: its findings have no places. -/
theorem survey_follows (vars : Variables) : Survey.Follows f id (survey vars) (survey vars) where
  note inArguments n := by
    change note vars inArguments (n.relocate f) = (note vars inArguments n).map id
    rw [note.eq_def, note.eq_def, form_relocate, callFindings_relocate, stateKey?_relocate,
      List.map_id]
  enter inArguments n number := by
    change enter inArguments (n.relocate f) number = enter inArguments n number
    rw [enter.eq_def, enter.eq_def, form_relocate, stateKey?_relocate]

theorem scan_relocate (vars : Variables) (body : FunctionBody) :
    scan vars (body.relocate f) = scan vars body := by
  rw [scan, scan, FunctionBody.roots_relocate, (survey_follows vars).runAll, List.map_id]

/-! ### The handlers -/

theorem methodName?_relocate (e : Node) : methodName? (e.relocate f) = methodName? e := by
  unfold methodName?
  rw [unwrap_relocate, form_relocate, calleePath?_relocate, path?_relocate]

theorem resolve_relocate (index : FunctionIndex) (event : String) (e : Node) :
    resolve (index.relocate f) event (e.relocate f)
      = ((resolve index event e).1, (resolve index event e).2.map (FunctionBody.relocate f)) := by
  unfold resolve
  -- A function written there has its body with it; all others are looked up by name.
  rw [FunctionBody.ofExpr?_relocate]
  cases FunctionBody.ofExpr? e with
  | some body => rfl
  | none =>
    simp only [Option.map_none, unwrap_relocate, form_relocate, methodName?_relocate,
      FunctionIndex.get?_relocate, summary_relocate]
    split
    · rfl
    · cases methodName? e <;> rfl

/-- A handler in an opening tag, with every place moved. -/
def Site.relocate (f : Place → Place) (s : Site) : Site :=
  ⟨s.element, s.event, s.name, s.body.map (FunctionBody.relocate f), f s.place⟩

theorem site?_relocate (index : FunctionIndex) (tag : TagName) (attr : Node) :
    site? (index.relocate f) tag (attr.relocate f)
      = (site? index tag attr).map (Site.relocate f) := by
  unfold site?
  rw [form_relocate, attributeValue_relocate, place_relocate]
  generalize attr.form = form, attr.attributeValue = value
  cases form
  case attr name =>
    cases value with
    | expression e =>
      simp only [AttributeValue.relocate, resolve_relocate]
      split <;> rfl
    | missing | quoted text | emptyBraces | markup n => rfl
  all_goals rfl

theorem sites_relocate (index : FunctionIndex) (n : Node) :
    sites (index.relocate f) (n.relocate f) = (sites index n).map (Site.relocate f) := by
  unfold sites
  rw [form_relocate, attributes_relocate]
  split
  · rw [relocates_eq_map]
    exact filterMap_map_relocate (site?_relocate index _) _
  · rfl

theorem record_relocate (vars : Variables) (s : Site) :
    (s.relocate f).record vars = (s.record vars).map f := by
  have hscan : ((s.body.map (FunctionBody.relocate f)).elim ([], []) (scan vars))
      = s.body.elim ([], []) (scan vars) := by
    cases s.body with
    | none => rfl
    | some body => exact scan_relocate vars body
  simp only [Site.record, Site.relocate, hscan]
  rfl

theorem diagnostic?_relocate (s : Site) :
    (s.relocate f).diagnostic? = s.diagnostic?.map (Diagnostic.map f) := by
  obtain ⟨element, event, name, body, place⟩ := s
  cases body <;> rfl

/-- What is known of a variable by name has no places. -/
theorem namesOf_map (stateVariables : List (StateVariable Place)) :
    namesOf (stateVariables.map (StateVariable.map f)) = namesOf stateVariables := by
  rw [namesOf, namesOf, List.map_map]
  rfl

end Handler

/-- **The event handlers of a moved module** are those of the module, moved, and so are the
diagnostics. -/
theorem analyzeHandlers_relocate (m : Module) (stateVariables : List (StateVariable Place)) :
    analyzeHandlers (m.relocate f) (stateVariables.map (StateVariable.map f))
      = ((analyzeHandlers m stateVariables).1.map (EventHandler.map f),
        (analyzeHandlers m stateVariables).2.map (Diagnostic.map f)) := by
  have hsites : (m.relocate f).nodes.flatMap (Handler.sites (FunctionIndex.ofModule (m.relocate f)))
      = (m.nodes.flatMap (Handler.sites (FunctionIndex.ofModule m))).map
          (Handler.Site.relocate f) := by
    rw [FunctionIndex.ofModule_relocate, Module.nodes_relocate]
    exact flatMap_map_relocate (Handler.sites_relocate _) m.nodes
  simp only [analyzeHandlers, hsites, Handler.namesOf_map, List.map_map, List.filterMap_map,
    List.map_filterMap, Function.comp_def, Handler.record_relocate, Handler.diagnostic?_relocate]

end JsxWidgets
