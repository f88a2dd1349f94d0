import JsxWidgets.Syntax.Grammar.Types

/-!
# The grammar of functions

A function is read from its type parameters on, whatever introduces it: a name, a key, or nothing.
Where types may be stated, it may be declared without a body.
-/

namespace JsxWidgets.Syntax

open Reading

/-- Statements in braces. -/
def statements (g : Rules) : Reading (List Node) := do
  expect "\x7b"
  bracketed (untilBrace ((g ()).statement true))

/-- The statements of a body in braces. -/
def body (g : Rules) : Reading Node := do
  let place ← here
  return ⟨.body, place, ← statements g⟩

/-- Whether parameters are plain names. -/
def areSimple (params : List Node) : Bool :=
  params.all fun p =>
    match p.form with
    | .bind _ => true
    | _ => false

/-- Where the statements of a body ask for strictness: in one of the texts they start with. -/
def strictDirective? (code : List Node) : Option Place :=
  let texts := code.takeWhile fun n =>
    match n with
    | ⟨.exprStmt, _, [⟨.string _, _, _⟩]⟩ => true
    | _ => false
  (texts.find? fun n => (n.parts.head?.map (·.form)) == some (.string "use strict")).map (·.place)

/-- Reports that a body asks for strictness although its parameters are not plain names. Files with
types may do so. -/
def checkDirective (params : List Node) (code : Node) : Reading Unit := do
  if !(← hasTypes) ∧ !areSimple params then
    match strictDirective? code.parts with
    | some p => report .misplacedDirective p
    | none => pure ()

/-- The body of a function with the given parameters; the place is that of its name. -/
def functionBody (g : Rules) (isAsync isGenerator : Bool) (params : List Node) (name : Place) :
    Reading Node := do
  if (← scope).ambient ∧ (← hasTypes) ∧ (← at? "\x7b") then report .ambientBody name
  inScope (Scope.enter isAsync isGenerator false) do
    if (← hasTypes) ∧ !(← at? "\x7b") then
      if ← eatEnd then return .absent
    let code ← body g
    checkDirective params code
    return code

/-- A function from its type parameters on. The arguments read the parameters and tell the place of
the name. -/
def functionRest (g : Rules) (isAsync isGenerator : Bool) (parameters : Reading (List Node))
    (name : Place) : Reading Node := do
  let place ← here
  inScope (fun s => { s with inAsync := isAsync, inGenerator := isGenerator }) do
    let generic ← typeParameters? g .functions
    expect "("
    -- the parameters stand outside the body, so there is nothing to return from in them
    let params ← inScope (Scope.forParameters isAsync isGenerator) (bracketed parameters)
    expect ")"
    let result ← resultAnnotation g
    let code ← functionBody g isAsync isGenerator params name
    if code.form = .absent then
      for p in params do
        if p.form = .defaultPat then report .defaultWithoutBody p.place
    return ⟨.fn, place, [.list params, code, generic, result]⟩

/-- Whether a function goes on behind its key: with its parameters, or its type parameters. -/
def atMethod : Reading Bool := do
  if ← at? "(" then return true
  return (← hasTypes) && (← at? "<")

/-- Reads a function that is no member of an object or of a class. -/
def outsideMembers {α : Type} (p : Reading α) : Reading α :=
  inScope (fun s => { s with allowsSuper := false, inField := false, inConsequent := false }) p

/-- Reads a function that is a member of an object or of a class. -/
def asMember {α : Type} (p : Reading α) : Reading α :=
  inScope (fun s => { s with allowsSuper := true, inField := false }) p

/-- Passes the words that introduce a function: whether it may wait and whether it yields. -/
def functionHead : Reading (Bool × Bool) := do
  let isAsync ← eatWord "async"
  expectWord "function"
  let isGenerator ← eat "*"
  return (isAsync, isGenerator)

/-- Whether a function is introduced here. -/
def atFunction : Reading Bool := do
  if ← atWord? "function" then return true
  let next ← second
  return (← atWord? "async") && next.kind == .word "function" && !next.newline

/-- A function as an expression. -/
def functionExpression (g : Rules) : Reading Node := do
  let place ← here
  let (isAsync, isGenerator) ← functionHead
  let name ←
    inScope (fun s => { s with inAsync := isAsync, inGenerator := isGenerator }) binder?
  let fn ← outsideMembers (functionRest g isAsync isGenerator (formalParameters g) name.place)
  match fn.parts with
  | [_, ⟨.absent, _, _⟩, _, _] => fail
  | _ => return ⟨.functionExpr, place, [name, fn]⟩

/-- A function as a declaration. -/
def functionDeclaration (g : Rules) : Reading Node := do
  let place ← here
  let (isAsync, isGenerator) ← functionHead
  let name ← binder
  let fn ← outsideMembers (functionRest g isAsync isGenerator (formalParameters g) name.place)
  return ⟨.fnDecl, place, [name, fn]⟩

/-- Parameters other than the one for the object itself. -/
def properParameters (params : List Node) : List Node :=
  params.filter fun p => p.form ≠ .bind "this"

/-- The parameters of a getter: none. The place is that of a fault. -/
def getterParameters (g : Rules) (place : Place) : Reading (List Node) := do
  let params ← formalParameters g
  unless (properParameters params).isEmpty do report .getterParameter place
  return params

/-- The parameters of a setter: one. The place is that of a fault. -/
def setterParameters (g : Rules) (place : Place) : Reading (List Node) := do
  let params ← formalParameters g
  if (properParameters params).length ≠ 1 then report .setterParameter place
  match params with
  | ⟨.rest, p, _⟩ :: _ => report .setterRest p
  | _ => pure ()
  return params

end JsxWidgets.Syntax
