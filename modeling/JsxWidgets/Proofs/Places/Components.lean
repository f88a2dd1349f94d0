import JsxWidgets.Component
import JsxWidgets.Proofs.Places.Expressions

/-!
# The component of a moved module

The candidates of a moved module are those of the module, moved, in the same order; so the component
is the same one.
-/

namespace JsxWidgets

open Syntax Syntax.Node Expression

/-- What a component consists of, with every place moved. -/
def ComponentBody.relocate (f : Place → Place) : ComponentBody → ComponentBody
  | .function fn => .function (fn.relocate f)
  | .arrow fn => .arrow (fn.relocate f)
  | .classBody cls => .classBody (cls.relocate f)

/-- A component with every place moved. -/
def Component.relocate (f : Place → Place) (c : Component) : Component :=
  ⟨c.name, c.kind, c.body.relocate f⟩

variable {f : Place → Place}

/-! ### What functions return -/

mutual

/-- The markup that a statement returns moves with the statement. -/
theorem returnedMarkup?_relocate (statement : Node) :
    returnedMarkup? (statement.relocate f) = (returnedMarkup? statement).map (relocate f) := by
  obtain ⟨form, place, parts⟩ := statement
  -- one case for each statement the scan enters; each has a fixed number of parts
  cases form
  case give =>
    rcases parts with _ | ⟨e, _ | ⟨_, _⟩⟩
    · rfl
    · simp only [relocate, relocates, returnedMarkup?, isMarkup_relocate, unwrap_relocate]
      split <;> rfl
    · rfl
  case block => exact firstReturnedMarkup?_relocates parts
  case branch =>
    rcases parts with _ | ⟨_, _ | ⟨yes, _ | ⟨no, _ | ⟨_, _⟩⟩⟩⟩
    case cons.cons.cons.nil =>
      simp only [relocate, relocates, returnedMarkup?, returnedMarkup?_relocate yes,
        returnedMarkup?_relocate no, Option.map_or]
    all_goals rfl
  case switch =>
    rcases parts with _ | ⟨_, cases⟩
    · rfl
    · exact firstReturnedMarkup?_relocates cases
  case case =>
    rcases parts with _ | ⟨_, statements⟩
    · rfl
    · exact firstReturnedMarkup?_relocates statements
  case attempt =>
    rcases parts with _ | ⟨⟨_, _, code⟩, _ | ⟨handler, _ | ⟨_, _ | ⟨_, _⟩⟩⟩⟩
    case cons.cons.cons.nil =>
      simp only [relocate, relocates, returnedMarkup?, firstReturnedMarkup?_relocates code,
        returnedMarkup?_relocate handler, Option.map_or]
    all_goals rfl
  case handler =>
    rcases parts with _ | ⟨_, _ | ⟨⟨_, _, code⟩, _ | ⟨_, _⟩⟩⟩
    case cons.cons.nil => exact firstReturnedMarkup?_relocates code
    all_goals rfl
  case labeled | whileLoop | doLoop =>
    rcases parts with _ | ⟨_, _ | ⟨inner, _ | ⟨_, _⟩⟩⟩
    case cons.cons.nil =>
      simpa only [relocate, relocates, returnedMarkup?] using returnedMarkup?_relocate inner
    all_goals rfl
  case forLoop =>
    rcases parts with _ | ⟨_, _ | ⟨_, _ | ⟨_, _ | ⟨inner, _ | ⟨_, _⟩⟩⟩⟩⟩
    case cons.cons.cons.cons.nil =>
      simpa only [relocate, relocates, returnedMarkup?] using returnedMarkup?_relocate inner
    all_goals rfl
  case forEach =>
    rcases parts with _ | ⟨_, _ | ⟨_, _ | ⟨inner, _ | ⟨_, _⟩⟩⟩⟩
    case cons.cons.cons.nil =>
      simpa only [relocate, relocates, returnedMarkup?] using returnedMarkup?_relocate inner
    all_goals rfl
  all_goals rfl

/-- So does the first that statements return. -/
theorem firstReturnedMarkup?_relocates (statements : List Node) :
    firstReturnedMarkup? (relocates f statements)
      = (firstReturnedMarkup? statements).map (Node.relocate f) := by
  cases statements with
  | nil => rfl
  | cons s rest =>
    rw [relocates, firstReturnedMarkup?, firstReturnedMarkup?, returnedMarkup?_relocate s,
      firstReturnedMarkup?_relocates rest, Option.map_or]

end

/-- So does that of a body. -/
theorem bodyMarkup?_relocate (body : Node) :
    bodyMarkup? (body.relocate f) = (bodyMarkup? body).map (relocate f) := by
  obtain ⟨form, place, statements⟩ := body
  cases form
  case body => exact firstReturnedMarkup?_relocates statements
  all_goals rfl

/-- So does that of a function. -/
theorem functionMarkup?_relocate (fn : Node) :
    functionMarkup? (fn.relocate f) = (functionMarkup? fn).map (relocate f) := by
  obtain ⟨form, place, parts⟩ := fn
  cases form
  case fn =>
    match parts with
    | [_, code, _, _] => exact bodyMarkup?_relocate code
    | [] | [_] | [_, _] | [_, _, _] | _ :: _ :: _ :: _ :: _ :: _ => rfl
  all_goals rfl

/-- And so does that of an arrow function. -/
theorem arrowMarkup?_relocate (fn : Node) :
    arrowMarkup? (fn.relocate f) = (arrowMarkup? fn).map (relocate f) := by
  obtain ⟨form, place, parts⟩ := fn
  cases form
  case arrow =>
    match parts with
    | [_, code, _, _] =>
      simp only [relocate, relocates, arrowMarkup?, form_relocate, bodyMarkup?_relocate,
        isMarkup_relocate, unwrap_relocate]
      split
      · rfl
      · split <;> rfl
    | [] | [_] | [_, _] | [_, _, _] | _ :: _ :: _ :: _ :: _ :: _ => rfl
  all_goals rfl

/-! ### Classes -/

/-- The members of a class move with it. -/
theorem classMembers_relocate (cls : Node) :
    classMembers (cls.relocate f) = relocates f (classMembers cls) := by
  obtain ⟨form, place, parts⟩ := cls
  cases form
  case cls =>
    match parts with
    | [] => rfl
    | ⟨_, _, _⟩ :: _ => rfl
  all_goals rfl

/-- Whether a class extends a component does not depend on where it stands. -/
theorem extendsComponent_relocate (cls : Node) :
    extendsComponent (cls.relocate f) = extendsComponent cls := by
  obtain ⟨form, place, parts⟩ := cls
  cases form
  case cls =>
    match parts with
    | [] | [_] => rfl
    | _ :: parent :: _ =>
      exact congrArg (Option.any componentParents.contains) (path?_relocate parent)
  all_goals rfl

/-! ### Candidates -/

/-- The function in a wrapper moves with it. -/
theorem wrappedFunction?_relocate (e : Node) :
    wrappedFunction? (e.relocate f) = (wrappedFunction? e).map (relocate f) := by
  obtain ⟨form, place, parts⟩ := e
  cases form
  case paren | asConst | nonNull =>
    match parts with
    | [e] =>
      simpa only [relocate, relocates, wrappedFunction?] using wrappedFunction?_relocate e
    | [] | _ :: _ :: _ => rfl
  case asType | satisfies =>
    match parts with
    | [e, _] =>
      simpa only [relocate, relocates, wrappedFunction?] using wrappedFunction?_relocate e
    | [] | [_] | _ :: _ :: _ :: _ => rfl
  case call =>
    match parts with
    | [callee, ⟨_, _, ⟨_, _, [e]⟩ :: _⟩, _] =>
      -- A wrapper is known by its name, and the function is its first argument.
      simp only [relocate, relocates, wrappedFunction?, path?_relocate, wrappedFunction?_relocate e]
      split <;> rfl
    | [] | [_] | [_, ⟨_, _, []⟩] | [_, ⟨_, _, []⟩, _] | _ :: ⟨_, _, []⟩ :: _ :: _ :: _ => rfl
    | [_, ⟨_, _, ⟨_, _, ps⟩ :: _⟩] | _ :: ⟨_, _, ⟨_, _, ps⟩ :: _⟩ :: _ :: _ :: _ =>
      match ps with
      | [] | [_] | _ :: _ :: _ => rfl
    | [_, ⟨_, _, ⟨_, _, []⟩ :: _⟩, _] | [_, ⟨_, _, ⟨_, _, _ :: _ :: _⟩ :: _⟩, _] => rfl
  all_goals rfl

/-- A function is a candidate wherever it stands. -/
theorem functionCandidate?_relocate (name : Option String) (fn : Node) :
    functionCandidate? name (fn.relocate f)
      = (functionCandidate? name fn).map (Component.relocate f) := by
  rw [functionCandidate?, functionCandidate?, functionMarkup?_relocate, Option.map_map,
    Option.map_map]
  rfl

/-- So is a class. -/
theorem classCandidate?_relocate (name : Option String) (cls : Node) :
    classCandidate? name (cls.relocate f)
      = (classCandidate? name cls).map (Component.relocate f) := by
  rw [classCandidate?, classCandidate?, extendsComponent_relocate]
  split <;> rfl

/-- A name is the same wherever it is bound. -/
@[simp] theorem binderName?_relocate (n : Node) : binderName? (n.relocate f) = binderName? n := by
  rw [binderName?, binderName?, form_relocate]

/-- The candidate that a function value is, under a name. -/
def valueCandidate? (name : String) (fn : Node) : Option Component :=
  match fn with
  | ⟨.arrow, p, parts⟩ =>
    (arrowMarkup? ⟨.arrow, p, parts⟩).map fun _ => ⟨some name, .arrow, .arrow ⟨.arrow, p, parts⟩⟩
  | ⟨.functionExpr, _, [_, fn]⟩ => functionCandidate? (some name) fn
  | _ => none

/-- A value is a candidate wherever it stands. -/
theorem valueCandidate?_relocate (name : String) (fn : Node) :
    valueCandidate? name (fn.relocate f)
      = (valueCandidate? name fn).map (Component.relocate f) := by
  obtain ⟨form, place, parts⟩ := fn
  cases form
  case arrow =>
    have harrow := arrowMarkup?_relocate (f := f) ⟨.arrow, place, parts⟩
    rw [relocate] at harrow ⊢
    rw [valueCandidate?, valueCandidate?, harrow, Option.map_map, Option.map_map]
    rfl
  case functionExpr =>
    match parts with
    | [_, fn] => exact functionCandidate?_relocate (some name) fn
    | [] | [_] | _ :: _ :: _ :: _ => rfl
  all_goals rfl

/-- The variable of a declaration is a candidate if its value is a function, wrappers aside. -/
theorem declaratorCandidate?_bind (place p : Place) (name : String) (ps : List Node)
    (value : Node) :
    declaratorCandidate? ⟨.declarator, place, [⟨.bind name, p, ps⟩, value]⟩
      = (wrappedFunction? value).bind (valueCandidate? name) := by
  rw [declaratorCandidate?]
  cases wrappedFunction? value with
  | none => rfl
  | some fn =>
    obtain ⟨form, q, parts⟩ := fn
    cases form
    case functionExpr =>
      match parts with
      | [] | [_] | [_, _] | _ :: _ :: _ :: _ => rfl
    all_goals rfl

/-- A declaration is a candidate wherever it stands. -/
theorem declaratorCandidate?_relocate (declarator : Node) :
    declaratorCandidate? (declarator.relocate f)
      = (declaratorCandidate? declarator).map (Component.relocate f) := by
  obtain ⟨form, place, parts⟩ := declarator
  cases form
  case declarator =>
    -- only a declarator with a name and a value can make a candidate
    match parts with
    | [⟨pattern, p, ps⟩, value] =>
      cases pattern
      case bind name =>
        rw [relocate, relocates, relocates, relocates, relocate, declaratorCandidate?_bind,
          declaratorCandidate?_bind, wrappedFunction?_relocate]
        cases wrappedFunction? value with
        | none => rfl
        | some fn => exact valueCandidate?_relocate name fn
      all_goals rfl
    | [] => rfl
    | [⟨pattern, _, _⟩] | ⟨pattern, _, _⟩ :: _ :: _ :: _ => cases pattern <;> rfl
  all_goals rfl

/-- What an item declares moves with the item. -/
theorem declaration?_relocate (item : Node) :
    declaration? (item.relocate f) = (declaration? item).map (relocate f) := by
  obtain ⟨form, place, parts⟩ := item
  cases form
  case declStmt | exportDecl =>
    match parts with
    | [_] | [] | _ :: _ :: _ => rfl
  all_goals rfl

/-- The functions that it declares are candidates all the same. -/
theorem functionCandidates_relocate (item : Node) :
    functionCandidates (item.relocate f)
      = (functionCandidates item).map (Component.relocate f) := by
  rw [functionCandidates, functionCandidates, declaration?_relocate]
  cases declaration? item with
  | none => rfl
  | some d =>
    obtain ⟨form, place, parts⟩ := d
    cases form
    case fnDecl | exportFn =>
      match parts with
      | [name, fn] =>
        simp only [Option.map_some, relocate, relocates, binderName?_relocate,
          functionCandidate?_relocate, Option.toList_map]
      | [] | [_] | _ :: _ :: _ :: _ => rfl
    all_goals rfl

/-- So are the variables. -/
theorem declaratorCandidates_relocate (item : Node) :
    declaratorCandidates (item.relocate f)
      = (declaratorCandidates item).map (Component.relocate f) := by
  rw [declaratorCandidates, declaratorCandidates, declaration?_relocate]
  cases declaration? item with
  | none => rfl
  | some d =>
    obtain ⟨form, place, parts⟩ := d
    cases form
    case varDecl kind =>
      simp only [Option.map_some, relocate, relocates_eq_map]
      exact filterMap_map_relocate declaratorCandidate?_relocate parts
    all_goals rfl

/-- So are the classes. -/
theorem classCandidates_relocate (item : Node) :
    classCandidates (item.relocate f) = (classCandidates item).map (Component.relocate f) := by
  rw [classCandidates, classCandidates, declaration?_relocate]
  cases declaration? item with
  | none => rfl
  | some d =>
    obtain ⟨form, place, parts⟩ := d
    cases form
    case classDecl | exportClass =>
      match parts with
      | [name, cls] =>
        simp only [Option.map_some, relocate, relocates, binderName?_relocate,
          classCandidate?_relocate, Option.toList_map]
      | [] | [_] | _ :: _ :: _ :: _ => rfl
    all_goals rfl

/-- **The candidates of a module move with it**, in the same order. -/
theorem candidates_relocate (m : Module) :
    (m.relocate f).candidates = m.candidates.map (Component.relocate f) := by
  rw [Module.candidates, Module.candidates, Module.relocate, relocates_eq_map,
    flatMap_map_relocate functionCandidates_relocate,
    flatMap_map_relocate declaratorCandidates_relocate,
    flatMap_map_relocate classCandidates_relocate, List.map_append, List.map_append]

/-- **The component of a moved module** is that of the module, moved. -/
theorem component?_relocate (m : Module) :
    (m.relocate f).component? = m.component?.map (Component.relocate f) := by
  rw [Module.component?, Module.component?, candidates_relocate, List.head?_map]

end JsxWidgets
