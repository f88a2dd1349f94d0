import JsxWidgets.Syntax.Form

/-!
# Syntax trees

A syntax tree is an ordered tree whose nodes carry a form and a place. A place is the byte offset of
the first character of a construct, counted from one, so that zero is left for "no place". A
construct in parentheses starts at the parenthesis, a chain of accesses and calls at its innermost
object.

The type is uniform on purpose. Most analyses go through a whole module and stop at a few forms; on
a uniform tree "all parts, in order" is one definition, and a law of it is proved once for all
forms. The forms say which parts to expect, and a function that asks for parts that are not there
gives the answer for "something else".
-/

namespace JsxWidgets.Syntax

/-- A byte offset counted from one; zero stands for no place. -/
abbrev Place := Nat

/-- A node of a syntax tree. -/
structure Node where
  /-- Which construct the node is. -/
  form : Form
  /-- Where the construct starts. -/
  place : Place
  /-- The parts, in the order in which analyses meet them. -/
  parts : List Node

/-- A module: its items in order. -/
abbrev Module := List Node

namespace Node

/-- A part that is missing. -/
def absent : Node := ⟨.absent, 0, []⟩

/-- Parts in a row. -/
def list (parts : List Node) : Node := ⟨.list, 0, parts⟩

/-- A node without parts. -/
def leaf (form : Form) (place : Place) : Node := ⟨form, place, []⟩

/-- The node for a part that may be missing. -/
def ofOption : Option Node → Node
  | some n => n
  | none => absent

/-- A part, unless it is missing. -/
def present? (n : Node) : Option Node :=
  match n.form with
  | .absent => none
  | _ => some n

instance : Inhabited Node := ⟨absent⟩

/-- The node inside parentheses, type assertions behind an expression, and non-null marks. A type in
front of an expression is kept. -/
def unwrap : Node → Node
  | ⟨.paren, _, [e]⟩ => unwrap e
  | ⟨.asType, _, [e, _]⟩ => unwrap e
  | ⟨.asConst, _, [e]⟩ => unwrap e
  | ⟨.satisfies, _, [e, _]⟩ => unwrap e
  | ⟨.nonNull, _, [e]⟩ => unwrap e
  | n => n

end Node

/-- Whether a form is an expression. -/
def Form.isExpr : Form → Bool
  | .invalid | .name _ | .this | .string _ | .number _ | .bigint _ | .bool _ | .null | .regex ..
  | .template _ | .tagged _ | .array | .object | .functionExpr | .arrow | .classExpr | .paren
  | .member | .superMember | .optMember | .call | .optCall | .construct | .unary _ | .update ..
  | .binary _ | .conditional | .assign _ | .sequence | .await | .yield | .metaProperty
  | .privateName _ | .markup | .asType | .asConst | .satisfies | .nonNull | .assertion
  | .instantiate => true
  | _ => false

/-- Whether a form is a statement. -/
def Form.isStmt : Form → Bool
  | .block | .empty | .exprStmt | .declStmt | .give | .labeled | .jump | .branch | .switch | .raise
  | .attempt | .whileLoop | .doLoop | .forLoop | .forEach | .within => true
  | _ => false

/-- The first name of a tag, if it is an identifier. -/
def TagName.root? : TagName → Option String
  | .simple n => some n
  | .member o _ => o.root?
  | .namespaced .. => none

/-- The identifier that a node is, introduces, assigns to or stands for. Names of members and of
keys are no identifiers. -/
def Form.identifier? : Form → Option String
  | .name t | .binder t | .bind t | .patName t | .shorthand t | .defaulted t => some t
  | .entity n => some n.root
  | .opening tag | .closing tag => tag.root?
  | _ => none

end JsxWidgets.Syntax
