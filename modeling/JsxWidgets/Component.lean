import JsxWidgets.Expression.Kind
import JsxWidgets.Expression.Path

/-!
# Components

A component is a function or a class that renders markup. Three rules find candidates among the
top-level and the exported declarations of a module:

1. a function declaration that returns markup,
2. a variable whose value is a function that gives markup, possibly wrapped in a call such as
   `memo`,
3. a class whose parent is the component class of the framework.

A candidate of an earlier rule is preferred, and of two candidates of one rule the first in the
text.
-/

namespace JsxWidgets

open Syntax Expression

/-- How a component is written. -/
inductive ComponentKind where
  | functional | arrow | classBased | unknown
  deriving DecidableEq, Repr, Inhabited

/-- What a component consists of. -/
inductive ComponentBody where
  /-- A function: its node of form `fn`. -/
  | function (fn : Node)
  /-- An arrow function. -/
  | arrow (fn : Node)
  /-- A class: its node of form `cls`. -/
  | classBody (cls : Node)

/-- A candidate for the component of a module. -/
structure Component where
  /-- The name, if it has one. -/
  name : Option String
  /-- How it is written. -/
  kind : ComponentKind
  /-- What it consists of. -/
  body : ComponentBody

/-! ### What a function returns -/

mutual

/-- The first markup that a statement returns. Nested functions and classes are not entered, and
neither is the cleanup of an exception handler. -/
def returnedMarkup? : Node → Option Node
  | ⟨form, _, parts⟩ =>
    match form, parts with
    | .give, [e] => if isMarkup e then some e.unwrap else none
    | .block, statements => firstReturnedMarkup? statements
    | .branch, [_, yes, no] => (returnedMarkup? yes).or (returnedMarkup? no)
    | .switch, _ :: cases => firstReturnedMarkup? cases
    | .case, _ :: statements => firstReturnedMarkup? statements
    -- the finalizer is not looked into, and neither is a function within the block
    | .attempt, [⟨_, _, code⟩, handler, _] =>
      (firstReturnedMarkup? code).or (returnedMarkup? handler)
    | .handler, [_, ⟨_, _, code⟩] => firstReturnedMarkup? code
    | .labeled, [_, inner] => returnedMarkup? inner
    | .forLoop, [_, _, _, inner] => returnedMarkup? inner
    | .forEach, [_, _, inner] => returnedMarkup? inner
    | .whileLoop, [_, inner] => returnedMarkup? inner
    | .doLoop, [_, inner] => returnedMarkup? inner
    | _, _ => none

/-- The first markup that one of several statements returns. -/
def firstReturnedMarkup? : List Node → Option Node
  | [] => none
  | s :: rest => (returnedMarkup? s).or (firstReturnedMarkup? rest)

end

/-- The first markup that the statements of a body return. -/
def bodyMarkup? (body : Node) : Option Node :=
  match body with
  | ⟨.body, _, statements⟩ => firstReturnedMarkup? statements
  | _ => none

/-- The markup that a function returns. -/
def functionMarkup? (fn : Node) : Option Node :=
  match fn with
  | ⟨.fn, _, [_, code, _, _]⟩ => bodyMarkup? code
  | _ => none

/-- The markup that an arrow function gives, either as its value or by a return. -/
def arrowMarkup? (fn : Node) : Option Node :=
  match fn with
  | ⟨.arrow, _, [_, code, _, _]⟩ =>
    match code.form with
    | .body => bodyMarkup? code
    | _ => if isMarkup code then some code.unwrap else none
  | _ => none

/-- The members of a class. -/
def classMembers (cls : Node) : List Node :=
  match cls with
  | ⟨.cls, _, ⟨_, _, members⟩ :: _⟩ => members
  | _ => []

/-- The method of a class that renders it. -/
def renderMethod? (cls : Node) : Option Node :=
  (classMembers cls).findSome? fun member =>
    match member with
    | ⟨.method, _, [⟨.word "render", _, _⟩, fn]⟩ => some fn
    | _ => none

/-- The parents that make a class a component. -/
def componentParents : List String :=
  ["Component", "PureComponent", "React.Component", "React.PureComponent"]

/-- Whether a class is a component by its parent. -/
def extendsComponent (cls : Node) : Bool :=
  match cls with
  | ⟨.cls, _, _ :: parent :: _⟩ => (path? parent).any componentParents.contains
  | _ => false

/-! ### Candidates -/

/-- The calls that give back the component they are handed. -/
def componentWrappers : List String := ["memo", "forwardRef", "observer"]

/-- The function that a value is, when wrappers are taken away. -/
def wrappedFunction? : Node → Option Node
  | ⟨form, place, parts⟩ =>
    match form, parts with
    | .paren, [e] => wrappedFunction? e
    | .asType, [e, _] => wrappedFunction? e
    | .asConst, [e] => wrappedFunction? e
    | .satisfies, [e, _] => wrappedFunction? e
    | .nonNull, [e] => wrappedFunction? e
    | .arrow, _ => some ⟨form, place, parts⟩
    | .functionExpr, _ => some ⟨form, place, parts⟩
    -- a call by a wrapper's name, whatever object it is taken from
    | .call, [callee, ⟨_, _, ⟨_, _, [e]⟩ :: _⟩, _] =>
      if ((path? callee).map lastName).any componentWrappers.contains then wrappedFunction? e
      else none
    | _, _ => none

/-- A function as a candidate. -/
def functionCandidate? (name : Option String) (fn : Node) : Option Component :=
  (functionMarkup? fn).map fun _ => ⟨name, .functional, .function fn⟩

/-- A class as a candidate. -/
def classCandidate? (name : Option String) (cls : Node) : Option Component :=
  if extendsComponent cls then some ⟨name, .classBased, .classBody cls⟩ else none

/-- A variable as a candidate. -/
def declaratorCandidate? (declarator : Node) : Option Component :=
  match declarator with
  | ⟨.declarator, _, [⟨.bind name, _, _⟩, value]⟩ =>
    match wrappedFunction? value with
    | some ⟨.arrow, p, parts⟩ =>
      (arrowMarkup? ⟨.arrow, p, parts⟩).map fun _ =>
        ⟨some name, .arrow, .arrow ⟨.arrow, p, parts⟩⟩
    | some ⟨.functionExpr, _, [_, fn]⟩ => functionCandidate? (some name) fn
    | _ => none
  | _ => none

/-- The name that a node introduces, if it is a binder. -/
def binderName? (n : Node) : Option String :=
  match n.form with
  | .binder t => some t
  | _ => none

/-- The declaration that an item of a module makes. -/
def declaration? (item : Node) : Option Node :=
  match item with
  | ⟨.declStmt, _, [d]⟩ => some d
  | ⟨.exportDecl, _, [d]⟩ => some d
  | ⟨.exportFn, p, parts⟩ => some ⟨.exportFn, p, parts⟩
  | ⟨.exportClass, p, parts⟩ => some ⟨.exportClass, p, parts⟩
  | _ => none

/-- The candidates of the first rule in an item. -/
def functionCandidates (item : Node) : List Component :=
  match declaration? item with
  | some ⟨.fnDecl, _, [name, fn]⟩ => (functionCandidate? (binderName? name) fn).toList
  | some ⟨.exportFn, _, [name, fn]⟩ => (functionCandidate? (binderName? name) fn).toList
  | _ => []

/-- The candidates of the second rule in an item. -/
def declaratorCandidates (item : Node) : List Component :=
  match declaration? item with
  | some ⟨.varDecl _, _, declarators⟩ => declarators.filterMap declaratorCandidate?
  | _ => []

/-- The candidates of the third rule in an item. -/
def classCandidates (item : Node) : List Component :=
  match declaration? item with
  | some ⟨.classDecl, _, [name, cls]⟩ => (classCandidate? (binderName? name) cls).toList
  | some ⟨.exportClass, _, [name, cls]⟩ => (classCandidate? (binderName? name) cls).toList
  | _ => []

/-- The candidates of a module, those of an earlier rule first. -/
def Syntax.Module.candidates (m : Module) : List Component :=
  m.flatMap functionCandidates ++ m.flatMap declaratorCandidates ++ m.flatMap classCandidates

/-- The component of a module. -/
def Syntax.Module.component? (m : Module) : Option Component := (m.candidates).head?

/-- The names of the candidates of a module. -/
def Syntax.Module.candidateNames (m : Module) : List String := (m.candidates).filterMap (·.name)

namespace Component

/-- The first parameter of a component that is a function. -/
def propsParameter? (c : Component) : Option Node :=
  match c.body with
  | .function ⟨_, _, ⟨_, _, params⟩ :: _⟩ => params.head?
  | .arrow ⟨_, _, ⟨_, _, params⟩ :: _⟩ => params.head?
  | _ => none

/-- The markup that a component renders. -/
def renderedMarkup? (c : Component) : Option Node :=
  match c.body with
  | .function fn => functionMarkup? fn
  | .arrow fn => arrowMarkup? fn
  | .classBody cls => (renderMethod? cls).bind functionMarkup?

end Component

end JsxWidgets
