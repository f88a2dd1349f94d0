import JsxWidgets.Hook.Analysis
import JsxWidgets.Proofs.Places.Expressions

/-!
# The hooks of a moved module

A call of a hook is told apart by names and shapes, and its place is copied into the record. A hook
that the file defines is looked up by its name, so that it has its record wherever it stands.
-/

namespace JsxWidgets

open Syntax Syntax.Node Expression

/-- A call of a hook, with every place moved. -/
def HookCall.relocate (f : Place → Place) (c : HookCall) : HookCall :=
  ⟨c.name, c.pattern.map (Node.relocate f), c.call.relocate f⟩

variable {f : Place → Place}

/-! ### Finding the calls -/

namespace HookCall

/-- A call is by the same name wherever it stands. -/
theorem name_relocate (c : HookCall) : (c.relocate f).name = c.name := rfl

/-- It is recorded where it stands. -/
theorem place_call_relocate (c : HookCall) : (c.relocate f).call.place = f c.call.place :=
  place_relocate c.call

/-- Whether it is a call of a hook does not depend on that. -/
theorem hookName?_relocate (call : Node) : hookName? (call.relocate f) = hookName? call := by
  rw [hookName?, hookName?, calleeName?_relocate]

/-- The call that a value is moves with the value. -/
theorem ofValue?_relocate (e : Node) :
    ofValue? (e.relocate f) = (ofValue? e).map fun (name, call) => (name, call.relocate f) := by
  obtain ⟨form, place, parts⟩ := e
  cases form
  case paren | asConst | nonNull | await =>
    match parts with
    | [e] => exact ofValue?_relocate e
    | [] | _ :: _ :: _ => rfl
  case asType | satisfies =>
    match parts with
    | [e, _] => exact ofValue?_relocate e
    | [] | [_] | _ :: _ :: _ :: _ => rfl
  -- the name of the hook is found at the callee, whose path does not move
  case call =>
    have hname := hookName?_relocate (f := f) ⟨.call, place, parts⟩
    rw [Node.relocate] at hname ⊢
    rw [ofValue?, ofValue?, hname, Option.map_map]
    rfl
  all_goals rfl

/-- So does the call in a declaration, with the pattern. -/
theorem ofDeclarator?_relocate (n : Node) :
    ofDeclarator? (n.relocate f) = (ofDeclarator? n).map (relocate f) := by
  obtain ⟨form, place, parts⟩ := n
  cases form
  case declarator =>
    match parts with
    | [pattern, value] =>
      rw [Node.relocate, relocates, relocates, relocates, ofDeclarator?, ofDeclarator?,
        ofValue?_relocate, Option.map_map, Option.map_map]
      rfl
    | [] | [_] | _ :: _ :: _ :: _ => rfl
  all_goals rfl

/-- The walk for calls of hooks follows every move. -/
theorem survey_follows : Survey.Follows f (relocate f) survey survey where
  note position n := by
    change note position (n.relocate f) = (note position n).map (relocate f)
    rw [note.eq_def, note.eq_def, form_relocate, ofDeclarator?_relocate, hookName?_relocate]
    split
    · exact Option.toList_map ..
    · cases hookName? n <;> rfl
    · rfl
  enter position n number := by
    change enter position (n.relocate f) number = enter position n number
    rw [enter.eq_def, enter.eq_def, form_relocate, ofDeclarator?_relocate, Option.isSome_map]

/-- Hence the calls of a module move with it. -/
theorem ofModule_relocate (m : Module) :
    ofModule (m.relocate f) = (ofModule m).map (relocate f) :=
  survey_follows.runAll .free m

end HookCall

/-! ### What an effect does -/

namespace SideEffect

/-- What a node does besides does not depend on where it stands. -/
theorem ofNode_relocate (n : Node) : ofNode (n.relocate f) = ofNode n := by
  obtain ⟨form, place, parts⟩ := n
  cases form
  case call =>
    have hpath := calleePath?_relocate (f := f) ⟨.call, place, parts⟩
    rw [relocate] at hpath ⊢
    rw [ofNode, ofNode, hpath]
  -- an assignment counts if its target is a member of a named object
  case assign op =>
    match parts with
    | [] => rfl
    | ⟨first, _, inner⟩ :: _ =>
      cases first
      case target =>
        match inner with
        | [] => rfl
        | ⟨access, _, ps⟩ :: rest =>
          cases access
          case member =>
            match ps, rest with
            | [], [] | [], _ :: _ | _ :: _, _ :: _ => rfl
            | object :: _, [] =>
              exact congrArg (fun path => path.elim [] ofAssignment) (path?_relocate object)
          all_goals rfl
      all_goals rfl
  all_goals rfl

/-- Nor does what an expression does. -/
theorem ofExpr_relocate (e : Node) : ofExpr (e.relocate f) = ofExpr e := by
  rw [ofExpr, ofExpr, nodes_relocate, List.flatMap_map]
  exact congrArg Text.firstOccurrences (List.flatMap_congr fun n _ => ofNode_relocate n)

end SideEffect

/-! ### Records -/

namespace Hook

/-- A pattern has the same name wherever it stands. -/
theorem patternName?_relocate (pattern : Option Node) :
    patternName? (pattern.map (relocate f)) = patternName? pattern := by
  match pattern with
  | none => rfl
  | some ⟨form, _, _⟩ => cases form <;> rfl

/-- So has a pair of names. -/
theorem pairNames_relocate (pattern : Option Node) :
    pairNames (pattern.map (relocate f)) = pairNames pattern := by
  match pattern with
  | none => rfl
  | some ⟨form, _, parts⟩ =>
    cases form
    case arrayPat =>
      match parts with
      | [] => rfl
      | ⟨_, _, items⟩ :: _ =>
        rw [Option.map_some, relocate, relocates, relocate, pairNames, pairNames,
          getElem?_relocates, getElem?_relocates, patternName?_relocate, patternName?_relocate]
    all_goals rfl

/-- Hence a state variable and its setter are called the same. -/
theorem stateNames_relocate (pattern : Option Node) :
    stateNames (pattern.map (relocate f)) = stateNames pattern := by
  rw [stateNames, stateNames, pairNames_relocate]

/-- An expression is told in the same words. -/
theorem pathOrSummary_relocate (e : Node) : pathOrSummary (e.relocate f) = pathOrSummary e := by
  rw [pathOrSummary, pathOrSummary, path?_relocate, summary_relocate]

/-- So are dependencies. -/
theorem dependencies?_relocate (arg : Option Node) :
    dependencies? (arg.map (relocate f)) = dependencies? arg := by
  cases arg with
  | none => rfl
  | some e =>
    rw [dependencies?, dependencies?, Option.map_some, Option.map_some, Option.map_some,
      unwrap_relocate]
    obtain ⟨form, place, items⟩ := e.unwrap
    cases form
    case array =>
      simp only [relocate, relocates_eq_map, List.filter_map, List.map_map, Function.comp_def,
        form_relocate, itemValue_relocate, pathOrSummary_relocate]
    all_goals rfl

/-- Whether a statement returns something does not depend on where it stands. -/
theorem returnsValue_relocate (statement : Node) :
    returnsValue (statement.relocate f) = returnsValue statement := by
  obtain ⟨form, place, parts⟩ := statement
  cases form
  case give =>
    match parts with
    | [] => rfl
    | ⟨form, _, _⟩ :: _ :: _ => cases form <;> rfl
    | [e] =>
      have hnull : (e.relocate f).unwrap.form = e.unwrap.form := by
        rw [unwrap_relocate, form_relocate]
      obtain ⟨form, p, inner⟩ := e
      cases form
      case absent => rfl
      all_goals exact congrArg (fun form => decide (form ≠ .null)) hnull
  all_goals rfl

/-- Nor does whether one of several does. -/
theorem any_returnsValue_relocates (statements : List Node) :
    (relocates f statements).any returnsValue = statements.any returnsValue := by
  rw [relocates_eq_map, List.any_map]
  exact congrArg (List.any statements) (funext returnsValue_relocate)

/-- So an effect cleans up wherever it stands. -/
theorem hasCleanup_relocate (callback : Option Node) :
    hasCleanup (callback.map (relocate f)) = hasCleanup callback := by
  cases callback with
  | none => rfl
  | some e =>
    rw [hasCleanup, hasCleanup, Option.map_some, Option.map_some, Option.map_some, unwrap_relocate]
    -- the callback is an arrow or a function, with a block or a value as its body
    obtain ⟨form, place, parts⟩ := e.unwrap
    cases form
    case arrow =>
      match parts with
      | [] | [_] => rfl
      | _ :: ⟨code, p, statements⟩ :: _ =>
        cases code
        case body => exact any_returnsValue_relocates statements
        all_goals exact isFunction_relocate ⟨_, p, statements⟩
    case functionExpr =>
      match parts with
      | [] | [_] => rfl
      | _ :: ⟨form, _, inner⟩ :: rest =>
        cases form
        case fn =>
          match inner, rest with
          | [], [] | [], _ :: _ | [_], [] | [_], _ :: _ => rfl
          | _ :: ⟨code, _, _⟩ :: _, _ :: _ => cases code <;> rfl
          | _ :: ⟨code, _, statements⟩ :: _, [] =>
            cases code
            case body => exact any_returnsValue_relocates statements
            all_goals rfl
        all_goals rfl
    all_goals rfl

/-- A reducer is told in the same words. -/
theorem reducerName_relocate (e : Node) : reducerName (e.relocate f) = reducerName e := by
  rw [reducerName, reducerName, isFunction_relocate, unwrap_relocate, pathOrSummary_relocate]

/-- **The record of a call** of a hook of the framework, with the place moved. -/
theorem ofBuiltin?_relocate (c : HookCall) :
    ofBuiltin? (c.relocate f) = (ofBuiltin? c).map (map f) := by
  have heffects : ((argument? c.call 0).map (relocate f)).elim [] SideEffect.ofExpr
      = (argument? c.call 0).elim [] SideEffect.ofExpr := by
    cases argument? c.call 0 with
    | none => rfl
    | some e => exact SideEffect.ofExpr_relocate e
  simp only [ofBuiltin?, HookCall.relocate, argument?_relocate, place_relocate,
    dependencies?_relocate, stateNames_relocate, inferredType_relocate, hasCleanup_relocate,
    heffects, patternName?_relocate, pairNames_relocate, map_map_relocate snapshot_relocate,
    map_map_relocate pathOrSummary_relocate, map_map_relocate reducerName_relocate]
  split <;> rfl

/-! ### Hooks that the file defines -/

/-- A definition of a hook moves with its node. -/
theorem definition?_relocate (n : Node) :
    definition? (n.relocate f) = (definition? n).map fun (name, place) => (name, f place) := by
  obtain ⟨form, place, parts⟩ := n
  cases form
  case fnDecl =>
    match parts with
    | [] => rfl
    | ⟨form, _, _⟩ :: _ =>
      cases form
      case binder name =>
        rw [relocate, relocates, relocate, definition?, definition?]
        split <;> rfl
      all_goals rfl
  -- a declarator defines a hook if its value is a function
  case declarator =>
    match parts with
    | [] => rfl
    | [⟨form, _, _⟩] | ⟨form, _, _⟩ :: _ :: _ :: _ => cases form <;> rfl
    | [⟨form, _, _⟩, value] =>
      cases form
      case bind name =>
        rw [relocate, relocates, relocates, relocates, relocate, definition?, definition?,
          isFunction_relocate]
        split <;> rfl
      all_goals rfl
  all_goals rfl

/-- Definitions with every place moved. -/
def Definitions.relocate (f : Place → Place) (ds : Definitions) : Definitions :=
  ds.map fun (name, place) => (name, f place)

/-- So do all definitions of a module. -/
theorem definitions_relocate (m : Module) :
    definitions (m.relocate f) = (definitions m).relocate f := by
  rw [definitions, definitions, Module.nodes_relocate]
  exact filterMap_map_relocate definition?_relocate m.nodes

/-- Where a hook is defined moves with its definition. -/
theorem get?_relocate (ds : Definitions) (name : String) :
    (ds.relocate f).get? name = (ds.get? name).map f := by
  rw [Definitions.get?, Definitions.get?, Definitions.relocate, List.find?_map, Option.map_map,
    Option.map_map]
  rfl

/-! ### The records together -/

/-- Whose record it is does not depend on where its calls stand. -/
theorem isCustomOf_map (name : String) (h : Hook Place) :
    isCustomOf name (h.map f) = isCustomOf name h := by
  cases h <;> rfl

/-- A usage is added where it stands. -/
theorem addUsage_map (name : String) (place : Place) (h : Hook Place) :
    addUsage name (f place) (h.map f) = (addUsage name place h).map f := by
  cases h
  case custom h =>
    simp only [map, addUsage, custom.injEq]
    split
    · rw [List.map_append]
      rfl
    · rfl
  all_goals rfl

/-- **One more call** is recorded as it was, at the moved place. -/
theorem record_relocate (ds : Definitions) (records : List (Hook Place)) (c : HookCall) :
    record (ds.relocate f) (records.map (map f)) (c.relocate f)
      = (record ds records c).map (map f) := by
  rw [record, record, ofBuiltin?_relocate]
  cases ofBuiltin? c with
  | some h =>
    rw [List.map_append]
    rfl
  | none =>
    simp only [Option.map_none, HookCall.name_relocate, HookCall.place_call_relocate,
      get?_relocate]
    cases ds.get? c.name with
    | none => rfl
    | some place =>
      -- The call joins the record of the hook, or it is the first one and starts it.
      simp only [Option.map_some, List.any_map, Function.comp_def, isCustomOf_map]
      split
      · rw [List.map_map, List.map_map]
        exact List.map_congr_left fun h _ => addUsage_map c.name c.call.place h
      · rw [List.map_append]
        rfl

/-- **The records move with the calls and the definitions**: each of them is made in the same way.
-/
theorem foldl_record_relocate (ds : Definitions) (records : List (Hook Place))
    (calls : List HookCall) :
    (calls.map (HookCall.relocate f)).foldl (record (ds.relocate f)) (records.map (map f))
      = (calls.foldl (record ds) records).map (map f) := by
  rw [List.foldl_map]
  exact List.foldl_hom (List.map (map f)) (record_relocate ds)

/-- The same hooks are without a definition. -/
theorem undefinedNames_relocate (ds : Definitions) (calls : List HookCall) :
    undefinedNames (ds.relocate f) (calls.map (HookCall.relocate f)) = undefinedNames ds calls := by
  rw [undefinedNames, undefinedNames, List.filter_map, List.map_map]
  simp only [Function.comp_def, ofBuiltin?_relocate, Option.isNone_map, get?_relocate,
    HookCall.name_relocate]

end Hook

/-- **The hooks of a moved module** are those of the module, moved, and the diagnostics are the
same. -/
theorem analyzeHooks_relocate (m : Module) :
    analyzeHooks (m.relocate f)
      = ((analyzeHooks m).1.map (Hook.map f), (analyzeHooks m).2.map (Diagnostic.map f)) := by
  have hcalls := Hook.foldl_record_relocate (f := f) (Hook.definitions m) []
    (HookCall.ofModule m)
  rw [analyzeHooks, analyzeHooks, Hook.definitions_relocate, HookCall.ofModule_relocate,
    Hook.undefinedNames_relocate, List.map_map]
  exact congrArg₂ Prod.mk hcalls rfl

end JsxWidgets
