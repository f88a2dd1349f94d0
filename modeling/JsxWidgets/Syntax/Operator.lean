/-!
# Operators of expressions

Each operator with the text that spells it.
-/

namespace JsxWidgets.Syntax

/-- Operators with one operand. -/
inductive UnaryOp where
  | minus | plus | logicalNot | bitNot | typeOf | void | delete
  deriving DecidableEq, Repr, Inhabited

/-- The spelling of a unary operator. -/
def UnaryOp.text : UnaryOp → String
  | .minus => "-"
  | .plus => "+"
  | .logicalNot => "!"
  | .bitNot => "~"
  | .typeOf => "typeof"
  | .void => "void"
  | .delete => "delete"

/-- Whether the spelling is a word, which needs a blank behind it. -/
def UnaryOp.isWord : UnaryOp → Bool
  | .typeOf | .void | .delete => true
  | _ => false

/-- Operators that change their operand. -/
inductive UpdateOp where
  | increment | decrement
  deriving DecidableEq, Repr, Inhabited

/-- The spelling of an update operator. -/
def UpdateOp.text : UpdateOp → String
  | .increment => "++"
  | .decrement => "--"

/-- Operators with two operands. -/
inductive BinaryOp where
  | equal | notEqual | strictEqual | strictNotEqual
  | less | lessEqual | greater | greaterEqual
  | shiftLeft | shiftRight | shiftRightUnsigned
  | add | sub | mul | div | mod | power
  | bitOr | bitXor | bitAnd
  | logicalOr | logicalAnd | nullish
  | isIn | instanceOf
  deriving DecidableEq, Repr, Inhabited

/-- The spelling of a binary operator. -/
def BinaryOp.text : BinaryOp → String
  | .equal => "=="
  | .notEqual => "!="
  | .strictEqual => "==="
  | .strictNotEqual => "!=="
  | .less => "<"
  | .lessEqual => "<="
  | .greater => ">"
  | .greaterEqual => ">="
  | .shiftLeft => "<<"
  | .shiftRight => ">>"
  | .shiftRightUnsigned => ">>>"
  | .add => "+"
  | .sub => "-"
  | .mul => "*"
  | .div => "/"
  | .mod => "%"
  | .power => "**"
  | .bitOr => "|"
  | .bitXor => "^"
  | .bitAnd => "&"
  | .logicalOr => "||"
  | .logicalAnd => "&&"
  | .nullish => "??"
  | .isIn => "in"
  | .instanceOf => "instanceof"

/-- Every binary operator. -/
def BinaryOp.all : List BinaryOp :=
  [.equal, .notEqual, .strictEqual, .strictNotEqual, .less, .lessEqual, .greater, .greaterEqual,
   .shiftLeft, .shiftRight, .shiftRightUnsigned, .add, .sub, .mul, .div, .mod, .power, .bitOr,
   .bitXor, .bitAnd, .logicalOr, .logicalAnd, .nullish, .isIn, .instanceOf]

/-- The operators of which only one operand may be evaluated. -/
def BinaryOp.isShortCircuit : BinaryOp → Bool
  | .logicalAnd | .logicalOr | .nullish => true
  | _ => false

/-- How tightly an operator binds; a larger number binds tighter. -/
def BinaryOp.precedence : BinaryOp → Nat
  | .nullish | .logicalOr => 1
  | .logicalAnd => 2
  | .bitOr => 3
  | .bitXor => 4
  | .bitAnd => 5
  | .equal | .notEqual | .strictEqual | .strictNotEqual => 6
  | .less | .lessEqual | .greater | .greaterEqual | .isIn | .instanceOf => 7
  | .shiftLeft | .shiftRight | .shiftRightUnsigned => 8
  | .add | .sub => 9
  | .mul | .div | .mod => 10
  | .power => 11

/-- Assignments: plain, or combined with an operator. -/
inductive AssignOp where
  | plain
  | combined (op : BinaryOp)
  deriving DecidableEq, Repr, Inhabited

/-- The spelling of an assignment operator. -/
def AssignOp.text : AssignOp → String
  | .plain => "="
  | .combined op => op.text ++ "="

end JsxWidgets.Syntax
