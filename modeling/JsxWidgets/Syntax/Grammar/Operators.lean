import JsxWidgets.Syntax.Grammar.Targets

/-!
# The grammar of operators

Operators between operands, choices between two values, and assignments. An operand that cannot be
read is a fault and no more if an operator stands where it fails; but an arrow function as the first
operand takes no operator at all.
-/

namespace JsxWidgets.Syntax

open Reading

/-! ### Operators that tokens spell -/

/-- The operator in front of an operand that a token spells. -/
def TokenKind.unaryOp? : TokenKind → Option UnaryOp
  | .punct "-" => some .minus
  | .punct "+" => some .plus
  | .punct "!" => some .logicalNot
  | .punct "~" => some .bitNot
  | .word "typeof" => some .typeOf
  | .word "void" => some .void
  | .word "delete" => some .delete
  | _ => none

/-- The operator between operands that a token spells by other characters than letters. -/
def TokenKind.infixOp? : TokenKind → Option BinaryOp
  | .punct p => BinaryOp.all.find? (·.text = p)
  | _ => none

/-- Whether an operator stands behind an expression that takes none. Where markup may stand, an
angle bracket there opens some. -/
def atStrayOperator : Reading Bool := do
  let t ← peek
  let opensMarkup := (← hasMarkup) && t.start.rest.head? == some '<'
  return t.kind.infixOp?.isSome && !opensMarkup

/-- The operator between operands that a token spells. -/
def TokenKind.binaryOp? (allowsIn : Bool) : TokenKind → Option BinaryOp
  | .word "instanceof" => some .instanceOf
  | .word "in" => if allowsIn then some .isIn else none
  | k => k.infixOp?

/-- The update operator that a token spells. -/
def TokenKind.updateOp? : TokenKind → Option UpdateOp
  | .punct "++" => some .increment
  | .punct "--" => some .decrement
  | _ => none

/-- The assignment operator that a text spells. -/
def assignOp? (text : String) : Option AssignOp :=
  if text = "=" then some .plain
  else (BinaryOp.all.find? fun op => (AssignOp.combined op).text = text
    && !(["==", "!=", "===", "!==", "<=", ">="].contains text)).map .combined

/-- The assignment operator that a token spells. -/
def TokenKind.assignOp? : TokenKind → Option AssignOp
  | .punct p => Syntax.assignOp? p
  | _ => none

/-! ### Binary operators -/

/-- Whether an expression is made by `&&` or by `||`. -/
def Node.isLogical (e : Node) : Bool :=
  e.form = .binary .logicalAnd || e.form = .binary .logicalOr

/-- Reports `??` as the left operand of another logical operator. -/
def checkNullish (e : Node) : Reading Unit := do
  match e.parts with
  | left :: _ =>
    if e.isLogical ∧ left.form = .binary .nullish then report .mixedNullish e.place
  | [] => pure ()

/-- A type stated behind an operand, if there is one. -/
def typedOperand? (g : Rules) (left : Node) : Reading (Option Node) := do
  if (← peek).newline then return none
  if ← atWord? "as" then
    discard pass
    if ← eatWord "const" then return some ⟨.asConst, left.place, [left]⟩
    return some ⟨.asType, left.place, [left, ← (g ()).type]⟩
  if ← eatWord "satisfies" then return some ⟨.satisfies, left.place, [left, ← (g ()).type]⟩
  return none

/-- An operator behind its left operand with its right operand, if it binds tighter than the given
number. A type behind an operand binds like a comparison. -/
def operation? (g : Rules) (left : Node) (floor : Nat) : Reading (Option Node) := do
  if (← hasTypes) ∧ floor < BinaryOp.isIn.precedence then
    match ← typedOperand? g left with
    | some n => return some n
    | none => pure ()
  match (← peek).kind.binaryOp? (← scope).allowsIn with
  | none => return none
  | some op =>
    if op.precedence ≤ floor then return none
    discard pass
    -- a power takes no unary operand on its left
    if op = .power then
      match left.form with
      | .unary _ | .await => fail
      | _ => pure ()
    let first ← (g ()).unary
    -- a power is the one operator that groups to the right
    let right ← (g ()).operators first (if op = .power then op.precedence - 1 else op.precedence)
    -- the two kinds of alternatives do not mix without parentheses
    if op = .nullish then
      if left.isLogical then report .mixedNullish left.place
      if right.isLogical then report .mixedNullish right.place
    return some ⟨.binary op, left.place, [left, right]⟩

/-- What follows an operand: operators that bind tighter than the given number, with operands. -/
def operatorsRule (g : Rules) (first : Node) (floor : Nat) : Reading Node :=
  iterate first fun left => do
    match ← operation? g left floor with
    | some n =>
      checkNullish n
      return .more n
    | none =>
      checkNullish left
      return .done left

/-- Operands with operators between them. Markup that cannot be read is no operand at all. -/
def binaryRule (g : Rules) : Reading Node := do
  let opensMarkup := (← hasMarkup) && (← at? "<")
  match ← tolerate (g ()).unary with
  | .ok left => if left.form = .arrow then return left else operatorsRule g left 0
  | .error e =>
    if ← atEnd? then failEnd
    if ((← peek).kind.binaryOp? (← scope).allowsIn).isSome ∧ !opensMarkup then
      report .missingExpression (← spot)
      operatorsRule g (.invalid e.place) 0
    else throw e

/-! ### Choices and assignments -/

/-- A choice between two values, behind its test and the question mark. -/
def choiceRest (g : Rules) (test : Node) : Reading Node := do
  let yes ←
    inScope (fun s => { s with allowsIn := true, inChoice := true, inConsequent := true })
      (g ()).assignment
  expect ":"
  let no ← inScope (fun s => { s with inChoice := true, inConsequent := false }) (g ()).assignment
  return ⟨.conditional, test.place, [test, yes, no]⟩

/-- A choice between two values, or a value. -/
def choiceRule (g : Rules) : Reading Node := do
  let test ← binaryRule g
  if test.form = .arrow then return test
  if ← eat "?" then choiceRest g test else return test

/-- An assignment behind its target, if an operator for it stands next. -/
def assignmentRest (g : Rules) (left : Node) : Reading Node := do
  match (← peek).kind.assignOp? with
  | none => return left
  | some op =>
    let target ← if op = .plain then plainTarget left else combinedTarget left
    discard pass
    let value ← (g ()).assignment
    return ⟨.assign op, left.place, [target, value]⟩

end JsxWidgets.Syntax
