import JsxWidgets.Syntax.Grammar.Classes
import JsxWidgets.Syntax.Grammar.Literals

/-!
# The grammar of arrow functions and of what stands for itself

What stands in parentheses may be the parameters of an arrow function or an expression; only what
follows tells. It is read once, as items that may be either, and turned into the one or the other
when the closing parenthesis has been passed. An arrow function can start only where a whole
expression starts.

Where types may be stated, a type of the result may stand in front of the arrow. In the first branch
of a choice the colon in front of it may belong to the choice; there a whole arrow function counts
only if a further colon follows.
-/

namespace JsxWidgets.Syntax

open Reading

/-! ### Arrow functions -/

/-- Notes where the expression starts that may turn out to be an arrow function; at zero none
does. -/
def noteArrowStart (place : Place) : Reading Unit :=
  modify fun s => { s with arrowStart := place }

/-- The body of an arrow function, which the arrow in front of it announces. -/
def arrowBody (g : Rules) (isAsync : Bool) (params : List Node) : Reading Node :=
  inScope (Scope.enter isAsync false true) do
    if ← at? "\x7b" then
      let code ← body g
      checkDirective params code
      return code
    else (g ()).assignment

/-- The node of an arrow function. -/
def arrowNode (place : Place) (params : List Node) (code : Node) (generic result : Node) : Node :=
  ⟨.arrow, place, [.list params, code, generic, result]⟩

/-- An arrow function whose only parameter is a name, from the arrow on. -/
def nameArrow (g : Rules) (place : Place) (isAsync : Bool) (name : Place × String) :
    Reading Node := do
  expect "=>"
  let params : List Node := [⟨.bind name.2, name.1, [.absent]⟩]
  return arrowNode place params (← arrowBody g isAsync params) (.list []) .absent

/-- An asynchronous arrow function with type parameters. -/
def asyncGenericArrow (g : Rules) : Reading Node := do
  let place ← here
  expectWord "async"
  let generic ← typeParameters? g .functions
  expect "("
  let params ← bracketed (formalParameters g)
  expect ")"
  let result ← resultAnnotation g
  expect "=>"
  return arrowNode place params (← arrowBody g true params) generic result

/-! ### Items in parentheses -/

/-- An item in parentheses, as an expression. Where types may be stated, a name is not read beyond
its operators, for a question mark behind it may mark it as optional. -/
def parenExpression (g : Rules) : Reading Node := do
  let t ← peek
  let isSpread := t.kind == .punct "..." && (← second).kind.isReference
  if (← hasTypes) ∧ (t.kind.isReference ∨ isSpread) then
    if isSpread then
      discard pass
      return ⟨.spread, t.place, [← binaryRule g]⟩
    let e ← binaryRule g
    return ⟨.item, t.place, [← assignmentRest g e]⟩
  else item g

/-- Reads a question mark behind an item in parentheses, if one stands there: the item with the
choice that the mark belongs to, or the item and that it is marked as optional. -/
def questionBehind (g : Rules) (arg : Node) : Reading (Node × Bool) := do
  if !(← hasTypes) ∨ !(← at? "?") then return (arg, false)
  -- behind such a mark there is no choice, so the parameter is optional
  if (← second).kind.isPunctOf [",", ":", ")", "="] then
    discard pass
    if arg.form = .spread then report .optionalRest (← lastPlace)
    match arg.parts with
    | [⟨.name _, _, _⟩] => return (arg, true)
    | _ => fail
  match arg with
  | ⟨.item, place, [test]⟩ =>
    discard pass
    return (⟨.item, place, [← choiceRest g test]⟩, false)
  | _ => return (arg, false)

/-- An item in parentheses read again as a parameter, with its type and its default. -/
def typedItem (g : Rules) (arg : Node) : Reading Node := do
  let pat ←
    match arg with
    | ⟨.spread, p, [e]⟩ => pure ⟨.rest, p, [← rereadAs .binding e, .absent]⟩
    | ⟨_, _, [e]⟩ => rereadAs .binding e
    | _ => fail
  let pat := pat.withType (← typeAnnotation g)
  if ← eat "=" then return ⟨.defaultPat, arg.place, [pat, ← (g ()).assignment]⟩
  return pat

/-- An item in parentheses: an expression, or a parameter with a type or a mark. -/
def parenItem (g : Rules) : Reading Node := do
  let place ← here
  noteArrowStart place
  let isField ← eatAccessModifier
  let (arg, isOptional) ← questionBehind g (← parenExpression g)
  let arg ←
    if isOptional ∨ ((← hasTypes) ∧ (← at? ":")) then typedItem g arg else pure arg
  if isField then report .parameterField place
  return arg

/-- Whether an item is a plain name. -/
def Node.isNameItem : Node → Bool
  | ⟨.item, _, [⟨.name _, _, _⟩]⟩ => true
  | ⟨.bind _, _, _⟩ => true
  | _ => false

/-- The items in parentheses and the place of a comma behind the last one. An arrow behind an item,
which its place has kept from being read with the item, is passed over; if the first item is a name,
an arrow function with all items so far as parameters becomes an item of its own. -/
def parenItems (g : Rules) : Reading (List Node × Option Place) := do
  expect "("
  let empty ← eatNull
  let (items, comma) ← iterate ([], none) fun (acc, comma) => do
    if empty ∨ (← at? ")") ∨ (← atEnd?) then return .done (acc.reverse, comma)
    let place ← here
    let acc := (← parenItem g) :: acc
    let acc ←
      -- an arrow without parentheses around a lone name, read where an item ends
      if ← eat "=>" then
        if acc.getLast?.any Node.isNameItem then do
          let params ← parametersOf acc.reverse none
          let code ← arrowBody g false params
          let arrow := arrowNode place params code (.list []) .absent
          pure (⟨.item, place, [arrow]⟩ :: acc)
        else pure acc
      else pure acc
    if ← at? ")" then return .more (acc, none)
    expect ","
    return .more (acc, some (← lastPlace))
  expect ")"
  return (items, comma)

/-! ### Parentheses -/

/-- A type of the result and the arrow behind it, as far as the closing parenthesis lets it be
read. -/
def arrowResult? (g : Rules) : Reading Node := do
  if (← hasTypes) ∧ !(← scope).inConsequent ∧ (← at? ":") then
    let found ← attempt <| silently do
      let type ← resultAnnotation g
      unless ← at? "=>" do fail
      return type
    return .ofOption found
  else return .absent

/-- A whole arrow function with a type of its result in a branch of a choice, behind its
parameters. -/
def arrowInChoice (g : Rules) (place : Place) (isAsync : Bool) (items : List Node) :
    Reading Node := do
  let result ← resultAnnotation g
  expect "=>"
  let params ← parametersOf items none
  let code ← arrowBody g isAsync params
  if (← scope).inConsequent ∧ !(← at? ":") then fail
  return arrowNode place params code (.list []) result

/-- What may follow the body of an arrow function in braces: an operator, which is a fault. -/
def behindArrow (g : Rules) (arrow : Node) : Reading Node := do
  if ← atStrayOperator then
    report .unfinishedStatement (← spot)
    let e ← (g ()).operators arrow 0
    unless ← atStatementEnd do report .unfinishedStatement (← spot)
    return e
  else return arrow

/-- The items in parentheses as an expression, or as the arguments of a call of what is named like
the word `async`. Properties with a default are faults here, unless they are inside of something. -/
def parenResult (place : Place) (isAsync : Bool) (items : List Node) : Reading Node := do
  -- `{ a = 1 }` is a pattern, and behind it there was no arrow
  for n in items do
    match n with
    | ⟨.item, _, [⟨.object, _, properties⟩]⟩ =>
      for p in properties do
        match p.form with
        | .defaulted _ => report .defaultOutsidePattern p.place
        | _ => pure ()
    | _ => pure ()
  if isAsync then
    return ⟨.call, place, [.leaf (.name "async") place, .list items, .list []]⟩
  if items.isEmpty ∨ items.any (·.form = .spread) then fail
  match items.flatMap (·.parts) with
  | [e] => return ⟨.paren, place, [e]⟩
  | es => return ⟨.paren, place, [⟨.sequence, (es.head?.map (·.place)).getD place, es⟩]⟩

/-- An expression in parentheses, an arrow function with its parameters in parentheses, or a call of
what is named like the word `async`, which stands at the given place. -/
def parenthesized (g : Rules) (mayBeArrow : Bool) (asyncAt : Option Place) : Reading Node := do
  let place := asyncAt.getD (← here)
  let isAsync := asyncAt.isSome
  let (items, comma) ←
    inScope (fun s => { s with inAsync := s.inAsync || isAsync }) (bracketed (parenItems g))
  -- in a choice the colon may be the choice's own or that of the result type
  if (← hasTypes) ∧ (← scope).inChoice ∧ (← at? ":") then
    match ← attempt (silently (arrowInChoice g place isAsync items)) with
    | some n => return n
    | none => pure ()
  let result ← arrowResult? g
  -- a pattern among the items leaves nothing but an arrow
  let hasPattern := items.any fun n => n.form ≠ .item && n.form ≠ .spread
  if hasPattern ∨ result.form ≠ .absent ∨ (← at? "=>") then
    if (← peek).newline ∨ !mayBeArrow then fail
    expect "=>"
    let params ← parametersOf items comma
    let code ← arrowBody g isAsync params
    let arrow := arrowNode place params code (.list []) result
    if code.form = .body then behindArrow g arrow else return arrow
  else parenResult place isAsync items

/-! ### What stands for itself -/

/-- An arrow function behind the word `async` and a name, or one of the other things that the two
words may be: the variable of a loop with what follows it, or the variable with a type. -/
def asyncName (g : Rules) (place : Place) : Reading Node := do
  let subject : Node := .leaf (.name "async") place
  let s ← scope
  if s.inLoopHead ∧ (← atWord? "of") ∧ (← second).kind ≠ .punct "=>" then
    unless s.inAwaitHead do report .asyncLoopVariable place
    return subject
  let (p, name) ← bindingIdentifier
  if (← hasTypes) ∧ name = "as" ∧ !(← at? "=>") then
    return ⟨.asType, place, [subject, ← (g ()).type]⟩
  nameArrow g place true (p, name)

/-- A name, or an arrow function that starts with it. -/
def namePrimary (g : Rules) (mayBeArrow : Bool) : Reading Node := do
  let (place, text) ← identifier
  -- These two words are reported as identifiers and as references.
  if text = "let" ∨ text = "static" then report (.reservedName text) place
  let t ← peek
  if mayBeArrow ∧ !t.newline then
    if text = "async" ∧ t.kind.isReference then return ← asyncName g place
    if t.kind = .punct "=>" then
      if text = "eval" ∨ text = "arguments" then report .unbindableName place
      return ← nameArrow g place false (place, text)
  return .leaf (.name text) place

/-- What may follow the word `async` where it does not stand for itself: a function, or an arrow
function with parentheses. -/
def asyncPrimary? (g : Rules) (mayBeArrow : Bool) : Reading (Option Node) := do
  let t ← peek
  if ← atFunction then return some (← functionExpression g)
  if !mayBeArrow then return none
  let next ← second
  -- `async <T>(x) => x` or the comparison of a variable called `async`
  if (← hasTypes) ∧ next.kind.isPunctOf ["<", "<<"] then
    match ← attempt (silently (asyncGenericArrow g)) with
    | some n => return some n
    | none => pure ()
  if next.kind = .punct "(" then
    discard pass
    return some (← parenthesized g true (some t.place))
  return none

/-- An expression that stands for itself. -/
def primary (g : Rules) : Reading Node := do
  let t ← peek
  let mayBeArrow := (← get).arrowStart == t.place
  let leaf (form : Form) : Reading Node := do
    discard pass
    return .leaf form t.place
  match t.kind with
  | .string v => leaf (.string v)
  | .number v => leaf (.number v)
  | .bigint v => leaf (.bigint v)
  | .hidden text =>
    let n ← leaf (.privateName text)
    -- a private name is an operand of `in` and nothing else
    unless ← atWord? "in" do fail
    return n
  | .word "this" => leaf .this
  | .word "null" => leaf .null
  | .word "true" => leaf (.bool true)
  | .word "false" => leaf (.bool false)
  | .word "function" => functionExpression g
  | .word "class" => classExpression g
  | .word text =>
    if text = "async" then
      match ← asyncPrimary? g mayBeArrow with
      | some n => return n
      | none => pure ()
    if text = "let" ∨ isReference text then namePrimary g mayBeArrow else fail
  | .punct "(" => parenthesized g mayBeArrow none
  | .punct "[" =>
    discard pass
    return ⟨.array, t.place, ← bracketed (arrayItems g t.place)⟩
  | .punct "\x7b" =>
    discard pass
    return ⟨.object, t.place, ← bracketed (objectProperties g t.place)⟩
  | .punct "`" => template g
  | .punct "/" => regex
  | .punct "/=" => regex
  | _ => fail

end JsxWidgets.Syntax
