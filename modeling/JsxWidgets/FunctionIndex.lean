import JsxWidgets.Component

/-!
# Named functions

An index of the functions of a file by name: declared functions, methods and fields of classes, and
variables whose value is a function. It reaches into the bodies of the functions that it finds. Of
two functions with one name the first is meant.
-/

namespace JsxWidgets

open Syntax Expression

/-- What a function does. -/
inductive FunctionBody where
  /-- It runs statements. -/
  | block (statements : List Node)
  /-- It gives the value of an expression. -/
  | value (e : Node)

namespace FunctionBody

/-- The body of a function. -/
def ofFunction? (fn : Node) : Option FunctionBody :=
  match fn with
  | ⟨.fn, _, [_, ⟨.body, _, statements⟩, _, _]⟩ => some (.block statements)
  | _ => none

/-- The body of an expression that is a function. -/
def ofExpr? (e : Node) : Option FunctionBody :=
  match e.unwrap with
  | ⟨.arrow, _, _ :: ⟨.body, _, statements⟩ :: _⟩ => some (.block statements)
  | ⟨.arrow, _, _ :: result :: _⟩ => some (.value result)
  | ⟨.functionExpr, _, [_, fn]⟩ => ofFunction? fn
  | _ => none

/-- The body of the function that a variable holds; the function may be handed to `useCallback`. -/
def ofInitializer? (e : Node) : Option FunctionBody :=
  match e.unwrap.form with
  | .call =>
    if calleeName? e.unwrap = some "useCallback" then (argument? e.unwrap 0).bind ofExpr? else none
  | _ => ofExpr? e

/-- The nodes of a body. -/
def roots : FunctionBody → List Node
  | .block statements => statements
  | .value e => [e]

end FunctionBody

/-- Functions by name, first ones first. -/
abbrev FunctionIndex := List (String × FunctionBody)

namespace FunctionIndex

/-- A function under a name, if there is both. -/
def entry (name : Option String) (body : Option FunctionBody) : FunctionIndex :=
  match name, body with
  | some n, some b => [(n, b)]
  | _, _ => []

/-- The name in a key that is a plain word. -/
def wordKey? (key : Node) : Option String :=
  match key.form with
  | .word t => some t
  | _ => none

/-- The name in a pattern that is a plain name. -/
def boundName? (pattern : Node) : Option String :=
  match pattern.form with
  | .bind t => some t
  | _ => none

mutual

/-- The functions that a statement, a declaration, a member of a class or a function-valued
expression names. -/
def ofNode : Node → FunctionIndex
  | ⟨form, _, parts⟩ =>
    match form, parts with
    | .declStmt, [d] => ofNode d
    | .exportDecl, [d] => ofNode d
    | .block, statements => ofNodes statements
    -- the name of a declaration comes before the names its body declares
    | .fnDecl, [name, ⟨.fn, _, [_, ⟨.body, _, statements⟩, _, _]⟩] =>
      entry (binderName? name) (some (.block statements)) ++ ofNodes statements
    | .exportFn, [name, ⟨.fn, _, [_, ⟨.body, _, statements⟩, _, _]⟩] =>
      entry (binderName? name) (some (.block statements)) ++ ofNodes statements
    | .classDecl, [_, cls] => ofNode cls
    | .exportClass, [_, cls] => ofNode cls
    | .cls, ⟨_, _, members⟩ :: _ => ofNodes members
    -- methods and fields are known by a plain name only: a quoted key is passed over
    | .method, [⟨.word name, _, _⟩, ⟨.fn, _, [_, ⟨.body, _, statements⟩, _, _]⟩] =>
      (name, .block statements) :: ofNodes statements
    | .field, [key, value, _] => entry (wordKey? key) (FunctionBody.ofExpr? value)
    | .varDecl _, declarators => ofNodes declarators
    | .declarator, [pattern, value] =>
      entry (boundName? pattern) (FunctionBody.ofInitializer? value) ++ ofNode value
    | .exportExpr, [e] => ofNode e
    | .paren, [e] => ofNode e
    | .asType, [e, _] => ofNode e
    | .asConst, [e] => ofNode e
    | .satisfies, [e, _] => ofNode e
    | .nonNull, [e] => ofNode e
    | .arrow, _ :: ⟨.body, _, statements⟩ :: _ => ofNodes statements
    | .functionExpr, [_, ⟨.fn, _, [_, ⟨.body, _, statements⟩, _, _]⟩] => ofNodes statements
    | .call, [_, ⟨_, _, args⟩, _] => ofNodes args
    | .item, [e] => ofNode e
    | .spread, [e] => ofNode e
    | _, _ => []

/-- The functions that several nodes name. -/
def ofNodes : List Node → FunctionIndex
  | [] => []
  | n :: ns => ofNode n ++ ofNodes ns

end

/-- The named functions of a module. -/
def ofModule (m : Module) : FunctionIndex := ofNodes m

/-- The function with a name. -/
def get? (index : FunctionIndex) (name : String) : Option FunctionBody :=
  (index.find? fun entry => entry.1 = name).map (·.2)

/-- Whether there is a function with a name. -/
def contains (index : FunctionIndex) (name : String) : Bool := (index.get? name).isSome

end FunctionIndex

end JsxWidgets
