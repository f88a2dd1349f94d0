import JsxWidgets.Syntax.Grammar.Arrows

/-!
# The grammar of expressions

From the tightest binding to the loosest: accesses and calls, unary operators, assignments,
sequences.

## Faults that are not reported

Some constructs of files with types are found by trying to read them, and what is read that way
reports no faults: markup and arrow functions with type parameters at the start of an expression,
and calls with type arguments behind another call.
-/

namespace JsxWidgets.Syntax

open Reading

/-! ### Accesses and calls -/

/-- The arguments of a call in parentheses. -/
def arguments (g : Rules) : Reading Node := do
  expect "("
  let empty ← if ← atEnd? then pure true else eatNull
  let args ←
    if empty then do
      expect ")"
      pure []
    else bracketed (commaList ")" (item g))
  return .list args

/-- Whether an expression is the beginning of an optional chain that goes on behind it. -/
def Node.isChain : Node → Bool
  | ⟨.optMember, _, _⟩ => true
  | ⟨.optCall, _, _⟩ => true
  | ⟨.nonNull, _, [e]⟩ => isChain e
  | _ => false

/-- The member that stands behind a point. -/
def memberName : Reading Node := do
  let t ← peek
  match t.kind with
  | .word text =>
    discard pass
    return .leaf (.word text) t.place
  | .hidden text =>
    discard pass
    return .leaf (.hidden text) t.place
  | _ => failName

/-- The member in brackets. -/
def memberInBrackets (g : Rules) : Reading Node := do
  let place ← here
  expect "["
  let e ← bracketed (g ()).expression
  expect "]"
  return ⟨.computed, place, [e]⟩

/-- Whether type arguments can end in front of the token that stands next. -/
def endsTypeArguments : Reading Bool := do
  let t ← peek
  match t.kind with
  | .punct p =>
    if ["(", "`"].contains p then return true
    if ["<", ">", "+", "-"].contains p then return false
    return t.newline || !(["[", "\x7b", "!", "~", "++", "--", "/", "/=", "@"].contains p)
  | .word text => return t.newline || ["in", "instanceof", "as", "satisfies"].contains text
  | .eof => return true
  | _ => return t.newline

/-- Type arguments of an expression, if the angle bracket that stands next opens some. -/
def callTypeArguments (g : Rules) : Reading (Option Node) := do
  if (← hasTypes) ∧ ((← at? "<") ∨ (← at? "<<")) then
    attempt <| silently do
      let args ← typeArguments g
      unless ← endsTypeArguments do fail
      return args
  else return none

/-- A template behind the function that it is handed to. -/
def taggedTemplate (g : Rules) (e types : Node) : Reading Node := do
  let (quasis, holes) ← templateParts g
  if e.isChain then report .taggedChain e.place
  return ⟨.tagged quasis, e.place, [e, types, .list holes]⟩

/-- The node of an access, which is optional if the chain in front of it is. -/
def accessNode (forced : Bool) (e selector : Node) : Node :=
  ⟨if forced || e.isChain then .optMember else .member, e.place, [e, selector]⟩

/-- The node of a call, which is optional if the chain in front of it is. -/
def callNode (forced : Bool) (e args types : Node) : Node :=
  ⟨if forced || e.isChain then .optCall else .call, e.place, [e, args, types]⟩

/-- An optional access or call, behind its mark. -/
def optionalAccess (g : Rules) (e : Node) : Reading Node := do
  if ← at? "[" then return accessNode true e (← memberInBrackets g)
  if ← at? "(" then return callNode true e (← arguments g) (.list [])
  match ← callTypeArguments g with
  | some types => return callNode true e (← arguments g) types
  | none => return accessNode true e (← memberName)

/-- What type arguments behind an expression belong to, and whether it is a call. -/
def typedAccess? (g : Rules) (e : Node) (called : Bool) : Reading (Option (Node × Bool)) := do
  let rest (types : Node) : Reading (Node × Bool) := do
    if ← at? "(" then return (callNode false e (← arguments g) types, true)
    if ← at? "`" then return (← silently (taggedTemplate g e types), called)
    return (⟨.instantiate, e.place, [e, types]⟩, called)
  -- behind a call the reading is only tried, for the bracket may be a comparison
  if called then
    attempt <| silently do
      match ← callTypeArguments g with
      | some types => rest types
      | none => fail
  else
    match ← callTypeArguments g with
    | some types => return some (← rest types)
    | none => return none

/-- Reads accesses and calls behind an expression. Behind `new` there are no calls. The last
argument says whether a call has been passed. -/
def accesses (g : Rules) (mayCall : Bool) (first : Node) (called : Bool) : Reading Node :=
  iterate (first, called) fun (e, called) => do
    let t ← peek
    match t.kind with
    | .punct "." =>
      discard pass
      return .more (accessNode false e (← memberName), called)
    | .punct "[" => return .more (accessNode false e (← memberInBrackets g), called)
    | .punct "?." =>
      unless mayCall do fail
      discard pass
      return .more (← optionalAccess g e, called)
    | .punct "(" =>
      if mayCall then return .more (callNode false e (← arguments g) (.list []), true)
      return .done e
    | .punct "`" => return .more (← taggedTemplate g e (.list []), called)
    -- on a new line it starts another expression
    | .punct "!" =>
      if (← hasTypes) ∧ !t.newline then
        discard pass
        return .more (⟨.nonNull, e.place, [e]⟩, called)
      return .done e
    -- the argument list of a construction belongs to the construction
    | .punct "<" | .punct "<<" =>
      if !mayCall then return .done e
      match ← typedAccess? g e called with
      | some next => return .more next
      | none => return .done e
    | _ => return .done e

/-- A member of the parent class, or a call of its constructor, behind the word `super`. -/
def parentAccess (g : Rules) (place : Place) : Reading Node := do
  if ← at? "(" then
    return ⟨.call, place, [.leaf .superCallee place, ← arguments g, .list []]⟩
  unless (← scope).allowsSuper do fail
  if ← eat "." then
    let (p, text) ← anyWord
    return ⟨.superMember, place, [.leaf (.word text) p]⟩
  return ⟨.superMember, place, [← memberInBrackets g]⟩

/-- The import of a module at run time, or what is known of this module, behind the word `import`. A
comma behind the arguments may stand only where types may be stated. -/
def importAccess (g : Rules) (place : Place) : Reading Node := do
  if ← eat "." then
    expectWord "meta"
    return .leaf .metaProperty place
  expect "("
  let args ← bracketed <| iterate [] fun acc => do
    if ← eat ")" then return .done acc.reverse
    let n ← item g
    if ← eat "," then
      -- only the typed grammar lets a comma end the list
      if (← at? ")") ∧ !(← hasTypes) then fail
      return .more (n :: acc)
    expect ")"
    return .done (n :: acc).reverse
  return ⟨.call, place, [.leaf .importCallee place, .list args, .list []]⟩

/-- What stands at the beginning of accesses and calls, and whether it is a call of the parent class
or of a module. -/
def accessRoot (g : Rules) : Reading (Node × Bool) := do
  let place ← here
  if ← atWord? "new" then return (← (g ()).construction, false)
  if ← eatWord "super" then return (← parentAccess g place, true)
  if ← eatWord "import" then return (← importAccess g place, true)
  return (← primary g, false)

/-- The construction of an object. -/
def constructionRule (g : Rules) : Reading Node := do
  let place ← here
  expectWord "new"
  if ← eat "." then
    expectWord "target"
    let s ← scope
    unless s.hasNewTarget ∨ s.inParameters ∨ s.inClass do report .strayNewTarget place
    return .leaf .metaProperty place
  if ← atWord? "import" then fail
  let (root, _) ← accessRoot g
  -- an arrow takes no arguments, and its body is not the callee
  if root.form = .arrow then return root
  let callee ← accesses g false root false
  let types := (← callTypeArguments g).getD (.list [])
  let args ← if ← at? "(" then arguments g else pure (.list [])
  return ⟨.construct, place, [callee, args, types]⟩

/-- An expression with accesses and calls. Markup is not accessed, and neither is an arrow
function. -/
def accessRule (g : Rules) : Reading Node := do
  if (← hasMarkup) ∧ (← atEnd?) then failEnd
  if (← hasMarkup) ∧ (← at? "<") then
    return ⟨.markup, ← here, [← (g ()).markup Cursor.token]⟩
  let (root, called) ← accessRoot g
  if root.form = .arrow then return root
  accesses g true root called

/-! ### Unary operators -/

/-- Waiting for a promise, behind the word that says so, which stands at the given place. The word
alone, where no operand can follow, is a name. -/
def awaited (g : Rules) (place : Place) : Reading Node := do
  if ← at? "*" then fail
  let s ← scope
  let endsHere := (← peek).kind.isPunctOf [")", "]", ","] || (← atStatementEnd)
  if endsHere ∧ !s.inAsync then
    report .awaitAsName place
    return .leaf (.name "await") place
  if s.inFunction ∧ !s.inAsync then report .strayAwait place
  if s.inParameters ∧ !s.inFunction then report .awaitInParameters place
  return ⟨.await, place, [← (g ()).unary]⟩

/-- Reports an operand that cannot be deleted. -/
def checkDeleted (e : Node) : Reading Unit := do
  match e.form with
  | .name _ => report .deletedVariable e.place
  | _ => pure ()
  if ← hasTypes then
    match e.form with
    | .member | .optMember => pure ()
    | _ => report .deletedValue e.place

/-- An operator in front of its operand. An operand that cannot be read is a fault and no more. -/
def prefixed (g : Rules) (op : UnaryOp) : Reading Node := do
  let place ← here
  discard pass
  let before := (← here) - 1
  let e ←
    match ← tolerate (g ()).unary with
    | .ok e => pure e
    | .error f => do
      reportFault f
      pure (.invalid before)
  if op = .delete then checkDeleted e
  return ⟨.unary op, place, [e]⟩

/-- An expression with a type in angle brackets in front of it. -/
def typeAssertion (g : Rules) : Reading Node := do
  let place ← here
  openAngle
  if ← eatWord "const" then
    closeAngle
    return ⟨.asConst, place, [← (g ()).unary]⟩
  let type ← (g ()).type
  closeAngle
  let e ← (g ()).unary
  return ⟨.assertion, place, [e, type]⟩

/-- An expression with accesses and calls, and the update operator behind it, if there is one. -/
def postfixed (g : Rules) : Reading Node := do
  let e ← accessRule g
  if e.form = .arrow then return e
  let after ← peek
  match after.kind.updateOp? with
  | some op =>
    if after.newline then return e
    checkTarget e false
    discard pass
    return ⟨.update op false, e.place, [e]⟩
  | none => return e

/-- An operand. -/
def unaryRule (g : Rules) : Reading Node := do
  let t ← peek
  match t.kind.unaryOp?, t.kind.updateOp? with
  | some op, _ => prefixed g op
  | none, some op =>
    discard pass
    let e ← (g ()).unary
    checkTarget e false
    return ⟨.update op true, t.place, [e]⟩
  | none, none =>
    if ← eatWord "await" then awaited g t.place
    -- where markup is allowed, an angle bracket opens an element
    else if (← hasTypes) ∧ !(← hasMarkup) ∧ (← at? "<") then typeAssertion g
    else postfixed g

/-! ### Assignments and sequences -/

/-- Whether an expression can start with a token. -/
def Token.startsExpression (t : Token) : Bool :=
  match t.kind with
  | .word w =>
    !reservedWords.contains w || ["class", "delete", "false", "function", "import", "new", "null",
      "super", "this", "true", "typeof", "void"].contains w
  | .punct p =>
    ["(", "[", "\x7b", "`", "+", "-", "!", "~", "++", "--", "/", "/=", "<", "@", "*"].contains p
  | .eof => true
  | _ => true

/-- Yielding a value; in parameters there is nothing to yield to. -/
def yielding (g : Rules) : Reading Node := do
  let place ← here
  expectWord "yield"
  let s ← scope
  if s.inParameters ∧ !s.inFunction then fail
  if (← atStatementEnd) ∨ !(← peek).startsExpression then return ⟨.yield, place, [.absent]⟩
  discard (eat "*")
  return ⟨.yield, place, [← (g ()).assignment]⟩

/-- An expression without a comma that does not start with type parameters. -/
def plainAssignment (g : Rules) : Reading Node := do
  if (← atWord? "yield") ∧ (← scope).inGenerator then return ← yielding g
  let t ← peek
  let mayBeArrow := t.kind.isReference || t.kind == .punct "("
  noteArrowStart (if mayBeArrow then t.place else 0)
  let left ← choiceRule g
  match left.form with
  | .arrow | .conditional | .binary _ | .unary _ | .update .. => return left
  | _ => assignmentRest g left

/-- An arrow function with type parameters. -/
def genericArrow (g : Rules) : Reading Node := do
  let place ← here
  unless (← second).kind.isWord do fail
  inScope (fun s => { s with inConsequent := false }) do
    let generic ← typeParameters? g .functions
    match ← plainAssignment g with
    | ⟨.arrow, _, [params, code, _, result]⟩ =>
      return ⟨.arrow, place, [params, code, generic, result]⟩
    | _ => fail

/-- An expression without a comma. -/
def assignmentRule (g : Rules) : Reading Node := do
  if (← hasTypes) ∧ (← at? "<") then
    if ← hasMarkup then
      orElse (silently (plainAssignment g)) (silently (genericArrow g))
    else
      match ← attempt (silently (genericArrow g)) with
      | some n => return n
      | none => plainAssignment g
  else plainAssignment g

/-- Expressions separated by commas. -/
def expressionRule (g : Rules) : Reading Node := do
  let first ← (g ()).assignment
  if !(← at? ",") then return first
  let all ← iterate [first] fun acc => do
    if ← eat "," then
      let e ← (g ()).assignment
      return .more (e :: acc)
    else return .done acc.reverse
  return ⟨.sequence, first.place, all⟩

end JsxWidgets.Syntax
