import JsxWidgets.Proofs.Places.Components
import JsxWidgets.Variable.Analysis

/-!
# The state variables of a moved module

A variable is followed by its name or its key, and what a read is for is told by the kinds of the
constructs around it. A read in parentheses has no place of its own; so the move has to leave "no
place" as it is.
-/

namespace JsxWidgets

open Syntax Syntax.Node Expression

variable {f : Place → Place}

/-! ### Attributes -/

namespace Syntax

/-- The value of an attribute, with every place moved. -/
def AttributeValue.relocate (f : Place → Place) : AttributeValue → AttributeValue
  | .missing => .missing
  | .quoted text => .quoted text
  | .expression e => .expression (e.relocate f)
  | .emptyBraces => .emptyBraces
  | .markup n => .markup (n.relocate f)

/-- The attributes of an opening tag move with it. -/
theorem Node.attributes_relocate (opening : Node) :
    (opening.relocate f).attributes = relocates f opening.attributes := by
  obtain ⟨form, place, parts⟩ := opening
  cases form
  case opening tag =>
    match parts with
    | [] => rfl
    | ⟨_, _, _⟩ :: _ => rfl
  all_goals rfl

/-- The value of an attribute moves with it. -/
theorem Node.attributeValue_relocate (attr : Node) :
    (attr.relocate f).attributeValue = attr.attributeValue.relocate f := by
  obtain ⟨form, place, parts⟩ := attr
  cases form
  case attr name =>
    match parts with
    | [] | _ :: _ :: _ => rfl
    | [⟨value, _, inner⟩] =>
      cases value
      case container =>
        match inner with
        | [] => rfl
        | [⟨e, _, _⟩] | ⟨e, _, _⟩ :: _ :: _ => cases e <;> rfl
      all_goals rfl
  all_goals rfl

end Syntax

namespace Usage

/-! ### The subject in an expression -/

/-- An expression names a subject wherever it stands. -/
theorem isNamedBy_relocate (s : Subject) (e : Node) :
    s.isNamedBy (e.relocate f) = s.isNamedBy e := by
  unfold Subject.isNamedBy
  rw [unwrap_relocate, form_relocate, path?_relocate]

/-- An object writes the same keys. -/
theorem writtenKeys_relocate (e : Node) : writtenKeys (e.relocate f) = writtenKeys e := by
  rw [writtenKeys, writtenKeys, unwrap_relocate]
  obtain ⟨form, place, properties⟩ := e.unwrap
  cases form
  case object =>
    simp only [relocate, relocates_eq_map, List.filterMap_map]
    refine List.filterMap_congr fun p _ => ?_
    obtain ⟨form, q, parts⟩ := p
    cases form
    case keyed =>
      match parts with
      | [] => rfl
      | key :: _ => exact keyName?_relocate key
    all_goals rfl
  all_goals rfl

/-- So does an argument of a call that sets state. -/
theorem stateKeys_relocate (arg : Node) : stateKeys (arg.relocate f) = stateKeys arg := by
  rw [stateKeys, stateKeys, unwrap_relocate]
  have hself := writtenKeys_relocate (f := f) arg.unwrap
  generalize arg.unwrap = e at hself ⊢
  obtain ⟨form, place, parts⟩ := e
  cases form
  case arrow =>
    match parts with
    | [] | [_] => exact hself
    | _ :: result :: _ => exact writtenKeys_relocate result
  all_goals exact hself

/-- A call changes a subject wherever it stands. -/
theorem isChangedBy_relocate (s : Subject) (call : Node) :
    s.isChangedBy (call.relocate f) = s.isChangedBy call := by
  cases s with
  | hook name setter => rw [Subject.isChangedBy, Subject.isChangedBy, calleePath?_relocate]
  | classKey key =>
    simp only [Subject.isChangedBy, calleePath?_relocate, argument?_relocate, Option.any_map,
      stateKeys_relocate]

/-- A part of a pattern takes a key wherever it stands. -/
theorem takesKey_relocate (key : String) (part : Node) :
    takesKey key (part.relocate f) = takesKey key part := by
  obtain ⟨form, place, parts⟩ := part
  cases form
  case patKeyed =>
    cases parts with
    | nil => rfl
    | cons k rest => exact congrArg (fun name => decide (name = some key)) (keyName?_relocate k)
  all_goals rfl

/-- So does a declaration. -/
theorem isTakenBy_relocate (s : Subject) (declarator : Node) :
    s.isTakenBy (declarator.relocate f) = s.isTakenBy declarator := by
  cases s with
  | hook name setter => rfl
  | classKey key =>
    obtain ⟨form, place, parts⟩ := declarator
    cases form
    -- only an object pattern takes keys, and only from a value
    case declarator =>
      match parts with
      | [] => rfl
      | ⟨pattern, _, inner⟩ :: rest =>
        cases pattern
        case objectPat =>
          match inner, rest with
          | [], [] | [], _ :: _ | ⟨_, _, _⟩ :: _, [] | ⟨_, _, _⟩ :: _, _ :: _ :: _ => rfl
          | ⟨_, _, taken⟩ :: _, [value] =>
            simp only [relocate, relocates, Subject.isTakenBy, path?_relocate, relocates_eq_map,
              List.any_map, Function.comp_def, takesKey_relocate]
        all_goals rfl
    all_goals rfl

/-! ### The walk -/

/-- What is found, with every place moved. -/
def Finding.relocate (f : Place → Place) : Finding → Finding
  | .read r => .read ⟨f r.location, r.context⟩
  | .update place => .update (f place)
  | .passed p => .passed p

/-- A read is recorded where it stands; what has no place of its own is at the start, which has to
stay there. -/
theorem readPlace_relocate (hf : f 0 = 0) (e : Node) :
    readPlace (e.relocate f) = f (readPlace e) := by
  rw [readPlace, readPlace, form_relocate, place_relocate]
  split
  · rfl
  · rfl
  · exact hf.symm

/-- What is found at an expression moves with it. -/
theorem expressionFindings_relocate (hf : f 0 = 0) (s : Subject) (a : Around) (e : Node) :
    expressionFindings s a (e.relocate f)
      = (expressionFindings s a e).map (Finding.relocate f) := by
  rw [expressionFindings, expressionFindings, isNamedBy_relocate, readPlace_relocate hf,
    form_relocate, isChangedBy_relocate, place_relocate, List.map_append]
  congr 1 <;> split <;> rfl

/-- What an attribute hands on does not depend on where it stands. -/
theorem passing?_relocate (s : Subject) (tag : TagName) (attr : Node) :
    passing? s tag (attr.relocate f) = (passing? s tag attr).map (Finding.relocate f) := by
  unfold passing?
  rw [form_relocate, attributeValue_relocate]
  generalize attr.form = form, attr.attributeValue = value
  cases form
  case attr name =>
    cases value with
    | expression e =>
      simp only [AttributeValue.relocate, isNamedBy_relocate]
      split <;> rfl
    | missing | quoted text | emptyBraces | markup n => rfl
  all_goals rfl

/-- **What is found at a node** of a moved tree. -/
theorem note_relocate (hf : f 0 = 0) (s : Subject) (a : Around) (n : Node) :
    note s a (n.relocate f) = (note s a n).map (Finding.relocate f) := by
  unfold note
  rw [form_relocate, expressionFindings_relocate hf, place_relocate, attributes_relocate,
    isTakenBy_relocate]
  split
  · split <;> rfl
  · -- Beside expressions, a property under its own name, a tag and a variable are looked at.
    split
    · split <;> rfl
    · rw [relocates_eq_map]
      exact filterMap_map_relocate (passing?_relocate _ _) _
    · split <;> rfl
    · rfl

/-- **The walk finds the same at each node**, and goes on in the same way. -/
theorem survey_follows (hf : f 0 = 0) (s : Subject) :
    Survey.Follows f (Finding.relocate f) (survey s) (survey s) where
  note := note_relocate hf s
  enter a n number := by
    change enter s a (n.relocate f) number = enter s a n number
    rw [enter, enter, form_relocate, isNamedBy_relocate]

/-- Hence all that it finds moves with the nodes. -/
theorem findings_relocate (hf : f 0 = 0) (s : Subject) (nodes : List Node) :
    findings s (relocates f nodes) = (findings s nodes).map (Finding.relocate f) :=
  (survey_follows hf s).runAll ⟨[], false⟩ nodes

/-- Reads move with the findings, and keep their context. -/
theorem reads_relocate (fs : List Finding) :
    reads (fs.map (Finding.relocate f)) = (reads fs).map fun r => ⟨f r.location, r.context⟩ := by
  rw [reads, reads, List.filterMap_map, List.map_filterMap]
  refine List.filterMap_congr fun x _ => ?_
  cases x <;> rfl

/-- Changes move with the findings. -/
theorem updates_relocate (fs : List Finding) :
    updates (fs.map (Finding.relocate f)) = (updates fs).map f := by
  rw [updates, updates, List.filterMap_map, List.map_filterMap]
  refine List.filterMap_congr fun x _ => ?_
  cases x <;> rfl

/-- What is handed on is without a place. -/
theorem passings_relocate (fs : List Finding) :
    passings (fs.map (Finding.relocate f)) = passings fs := by
  rw [passings, passings, List.filterMap_map]
  refine List.filterMap_congr fun x _ => ?_
  cases x <;> rfl

end Usage

/-! ### The variables -/

namespace StateVariable

/-- The variable of a hook moves with the hook and the module. -/
theorem ofHook_relocate (hf : f 0 = 0) (m : Module) (h : StateHook Place) :
    ofHook (m.relocate f)
        ⟨h.variableName, h.setter, h.initialValue, h.inferredType, f h.location⟩
      = (ofHook m h).map f := by
  simp only [ofHook, Module.relocate, Usage.findings_relocate hf, Usage.reads_relocate,
    Usage.updates_relocate, Usage.passings_relocate]
  rfl

/-- The object that an expression is moves with it. -/
theorem objectOf?_relocate (e : Node) :
    objectOf? (e.relocate f) = (objectOf? e).map (relocate f) := by
  rw [objectOf?, objectOf?, unwrap_relocate, form_relocate]
  split <;> rfl

/-- So does the state that a statement assigns. -/
theorem assignedState?_relocate (statement : Node) :
    assignedState? (statement.relocate f) = (assignedState? statement).map (relocate f) := by
  obtain ⟨form, place, parts⟩ := statement
  cases form
  case exprStmt =>
    match parts with
    | [] | _ :: _ :: _ => rfl
    | [e] =>
      rw [relocate, relocates, relocates, assignedState?, assignedState?, unwrap_relocate]
      generalize e.unwrap = assignment
      split
      · next heq =>
        simp only [relocate_eq_mk, relocates_eq_cons, relocates_eq_nil] at heq
        -- What is moved is an assignment to `this.state`, too.
        obtain ⟨_, _, rfl, -, _, _, rfl, ⟨_, _, rfl, -, _, _, rfl,
          ⟨_, _, rfl, -, _, _, rfl, ⟨_, _, rfl, -, -⟩, _, _, rfl, ⟨_, _, rfl, -, -⟩, rfl⟩, rfl⟩,
          value, _, rfl, rfl, rfl⟩ := heq
        exact objectOf?_relocate value
      · next h =>
        split
        · exact (h _ _ _ _ _ _ _ _ _ rfl).elim
        · rfl
  all_goals rfl

/-- So does the state that a member of a class sets. -/
theorem memberState?_relocate (member : Node) :
    memberState? (member.relocate f) = (memberState? member).map (relocate f) := by
  unfold memberState?
  -- the match is on the moved member, so its shape is carried back to the member
  split
  · next heq =>
    simp only [relocate_eq_mk, relocates_eq_cons, relocates_eq_nil] at heq
    obtain ⟨_, _, rfl, -, _, _, rfl, ⟨_, _, rfl, -, -⟩, value, _, rfl, rfl, _, _, rfl, -,
      rfl⟩ := heq
    exact objectOf?_relocate value
  · next heq =>
    simp only [relocate_eq_mk, relocates_eq_cons, relocates_eq_nil] at heq
    obtain ⟨_, _, rfl, -, _, _, rfl, -, _, _, rfl, ⟨_, statements, rfl, -, rfl⟩, rfl⟩ := heq
    exact findSome?_relocates assignedState?_relocate statements
  · next hfield hmaker =>
    split
    · exact (hfield _ _ _ _ _ rfl).elim
    · exact (hmaker _ _ _ _ rfl).elim
    · rfl

/-- Hence so does the initial state of a class. -/
theorem initialState?_relocate (cls : Node) :
    initialState? (cls.relocate f) = (initialState? cls).map (relocate f) := by
  rw [initialState?, initialState?, classMembers_relocate,
    findSome?_relocates memberState?_relocate]

/-- An entry of it has the same name, and its value moves with it. -/
theorem stateEntry?_relocate (property : Node) :
    stateEntry? (property.relocate f)
      = ( stateEntry? property).map fun (name, value) => (name, value.map (relocate f)) := by
  obtain ⟨form, place, parts⟩ := property
  cases form
  case keyed =>
    match parts with
    | [key, value] =>
      simp only [relocate, relocates, stateEntry?, keyName?_relocate, Option.map_map]
      rfl
    | [] | [_] | _ :: _ :: _ :: _ => rfl
  all_goals rfl

/-- The variable of an entry moves with the class. -/
theorem ofClassKey_relocate (hf : f 0 = 0) (cls : Node) (entry : String × Option Node) :
    ofClassKey (cls.relocate f) (entry.1, entry.2.map (relocate f))
      = (ofClassKey cls entry).map f := by
  have hfindings : Usage.findings (.classKey entry.1) [cls.relocate f]
      = (Usage.findings (.classKey entry.1) [cls]).map (Usage.Finding.relocate f) :=
    Usage.findings_relocate hf (.classKey entry.1) [cls]
  simp only [ofClassKey, hfindings, map_map_relocate snapshot_relocate, inferredType_relocate,
    Usage.reads_relocate, Usage.updates_relocate, Usage.passings_relocate]
  rfl

/-- **So do all variables of the class of a module.** -/
theorem ofClassComponent_relocate (hf : f 0 = 0) (m : Module) :
    ofClassComponent (m.relocate f) = (ofClassComponent m).map (map f) := by
  rw [ofClassComponent, ofClassComponent, component?_relocate]
  match m.component? with
  | none | some ⟨_, _, .function _⟩ | some ⟨_, _, .arrow _⟩ => rfl
  | some ⟨_, _, .classBody cls⟩ =>
    simp only [Option.map_some, Component.relocate, ComponentBody.relocate, initialState?_relocate]
    cases initialState? cls with
    | none => rfl
    | some state =>
      simp only [Option.map_some, parts_relocate, List.filterMap_map, Function.comp_def,
        stateEntry?_relocate, ← List.map_filterMap, List.map_map, ofClassKey_relocate hf]

end StateVariable

/-- The record of a state variable is moved with its hook. -/
theorem Hook.state?_map (h : Hook Place) :
    (h.map f).state? = h.state?.map fun h =>
      ⟨h.variableName, h.setter, h.initialValue, h.inferredType, f h.location⟩ := by
  cases h <;> rfl

/-- **The state variables of a moved module** are those of the module, moved. -/
theorem analyzeVariables_relocate (hf : f 0 = 0) (m : Module) (hooks : List (Hook Place)) :
    analyzeVariables (m.relocate f) (hooks.map (Hook.map f))
      = (analyzeVariables m hooks).map (StateVariable.map f) := by
  simp only [analyzeVariables, StateVariable.ofClassComponent_relocate hf, List.map_append,
    List.filterMap_map, Function.comp_def, Hook.state?_map, ← List.map_filterMap, List.map_map,
    StateVariable.ofHook_relocate hf]

end JsxWidgets
