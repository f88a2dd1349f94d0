import JsxWidgets.Syntax.Reading

/-!
# The grammar as a record

The rules of the grammar refer to one another in circles: a statement holds expressions, an
expression functions, a function statements. A rule does not call such another rule but asks a
`Grammar` for it, which it is handed. The circle is closed once, at the end, by building a grammar
of depth `n + 1` from one of depth `n`; since every turn of the circle passes a token, the length of
the text bounds the depth.

This module also holds what many rules share: the classes of words, names, and the scopes of
brackets and functions.
-/

namespace JsxWidgets.Syntax

/-- The rules that other rules ask for. -/
structure Grammar where
  /-- Expressions separated by commas. -/
  expression : Reading Node
  /-- An expression without a comma. -/
  assignment : Reading Node
  /-- What follows an operand: operators that bind tighter than the given number, with operands. -/
  operators : Node → Nat → Reading Node
  /-- An operand. -/
  unary : Reading Node
  /-- An expression that can be called or accessed. -/
  access : Reading Node
  /-- An expression that can be accessed but not called, or a construction. -/
  construction : Reading Node
  /-- A statement; a declaration is in place only if the argument says so. -/
  statement : Bool → Reading Node
  /-- An item of a module. -/
  moduleItem : Reading Node
  /-- A pattern, without a type and without a default. -/
  pattern : Reading Node
  /-- A type. -/
  type : Reading Node
  /-- Markup; the argument reads the token behind it. -/
  markup : (Cursor → Token) → Reading Node

/-- A grammar that is built when it is asked for. -/
abbrev Rules := Unit → Grammar

open Reading

/-! ### Words -/

/-- The words that are never identifiers. -/
def reservedWords : List String :=
  ["break", "case", "catch", "class", "const", "continue", "debugger", "default", "delete", "do",
   "else", "export", "extends", "false", "finally", "for", "function", "if", "import", "in",
   "instanceof", "new", "null", "return", "super", "switch", "this", "throw", "true", "try",
   "typeof", "var", "void", "while", "with"]

/-- The words that are identifiers at the price of a fault. -/
def guardedWords : List String :=
  ["enum", "implements", "interface", "let", "package", "private", "protected", "public", "static",
   "yield"]

/-- The words that a property which stands for a variable of its name must not be. -/
def isReservedName (word : String) : Bool :=
  reservedWords.contains word || ["await", "enum", "let", "yield"].contains word

/-- Whether a word refers to a variable. -/
def isReference (word : String) : Bool :=
  !reservedWords.contains word && word ≠ "await"
    && (word = "static" || !guardedWords.contains word)

/-- Whether a token refers to a variable. -/
def TokenKind.isReference : TokenKind → Bool
  | .word w => Syntax.isReference w
  | _ => false

/-- An identifier: its place and its text. -/
def identifier : Reading (Place × String) := do
  let t ← peek
  match t.kind with
  | .word text =>
    let s ← scope
    -- a parameter may be called `this` where there are types
    let isThis := text == "this" && (← hasTypes)
    if text = "await" ∧ !s.ambient then failWith .awaitAsName t.place
    if reservedWords.contains text ∧ !isThis then failName
    discard pass
    if guardedWords.contains text then report (.reservedName text) t.place
    if text = "arguments" ∧ s.inField then report .argumentsInField t.place
    return (t.place, text)
  | _ => failName

/-- An identifier that is bound. -/
def bindingIdentifier : Reading (Place × String) := do
  if (← atWord? "yield") ∧ (← scope).inGenerator then fail
  let (place, text) ← identifier
  if text = "eval" ∨ text = "arguments" then report .unbindableName place
  return (place, text)

/-- The node of a name that is introduced. -/
def binder : Reading Node := do
  let (place, text) ← bindingIdentifier
  return .leaf (.binder text) place

/-- The node of a name that may be missing. -/
def binder? : Reading Node := do
  if (← peek).kind.isReference then binder else return .absent

/-- Any word, be it an identifier or not. -/
def anyWord : Reading (Place × String) := do
  let t ← peek
  match t.kind with
  | .word text =>
    discard pass
    return (t.place, text)
  | _ => failName

/-- The node of a name that may be any word. -/
def anyBinder : Reading Node := do
  let (place, text) ← anyWord
  return .leaf (.binder text) place

/-! ### Scopes -/

/-- Reads inside brackets, where the words and colons of the constructs around lose their hold. -/
def bracketed {α : Type} (p : Reading α) : Reading α :=
  inScope (fun s => { s with allowsIn := true, inConsequent := false, plainBounds := false }) p

/-- Reads an expression where `in` is an operator. -/
def withIn {α : Type} (p : Reading α) : Reading α :=
  inScope (fun s => { s with allowsIn := true }) p

/-- The scope of the body of a function. -/
def Scope.enter (isAsync isGenerator isArrow : Bool) (s : Scope) : Scope :=
  { s with
    inFunction := true, inAsync := isAsync, inGenerator := isGenerator, mayBreak := false,
    mayContinue := false, hasNewTarget := s.hasNewTarget || !isArrow, labels := [] }

/-- The scope of the parameters of a function. -/
def Scope.forParameters (isAsync isGenerator : Bool) (s : Scope) : Scope :=
  { s with
    inFunction := false, inAsync := isAsync, inGenerator := isGenerator, inParameters := true }

/-! ### Parts of several rules -/

/-- Sets the type of a pattern, which is its last part. -/
def Node.withType (pat : Node) (type : Node) : Node :=
  match pat with
  | ⟨.bind t, p, _⟩ => ⟨.bind t, p, [type]⟩
  | ⟨.arrayPat, p, [items, _]⟩ => ⟨.arrayPat, p, [items, type]⟩
  | ⟨.objectPat, p, [properties, _]⟩ => ⟨.objectPat, p, [properties, type]⟩
  | ⟨.rest, p, [inner, _]⟩ => ⟨.rest, p, [inner, type]⟩
  | other => other

/-- A type behind a colon, if the file may state types and a colon stands next. -/
def typeAnnotation (g : Rules) : Reading Node := do
  if (← hasTypes) ∧ (← at? ":") then
    discard pass
    (g ()).type
  else return .absent

/-! ### Words in front of names -/

/-- Whether a token can follow a word in front of a name. -/
def Token.followsModifier (t : Token) : Bool :=
  !t.newline &&
    match t.kind with
    | .word _ | .hidden _ | .string _ | .number _ | .bigint _ => true
    | .punct p => ["[", "\x7b", "*", "...", "#"].contains p
    | _ => false

/-- Passes one of some words, if it stands in front of a name and the file may state types. -/
def eatModifier (words : List String) : Reading (Option String) := do
  if !(← hasTypes) then return none
  match (← peek).kind with
  | .word text =>
    if words.contains text ∧ (← second).followsModifier then
      discard pass
      return some text
    return none
  | _ => return none

/-- The words that make a parameter of a constructor a field. -/
def accessModifiers : List String := ["public", "protected", "private", "readonly"]

/-- Passes a word that makes a parameter a field, if one stands in front of a parameter. In front of
a line break it is a name, but counts as well. -/
def eatAccessModifier : Reading Bool := do
  if !(← hasTypes) then return false
  match (← peek).kind with
  | .word text =>
    let next ← second
    if accessModifiers.contains text ∧ (next.kind.isWord || next.kind.isPunctOf ["\x7b", "["]) then
      unless next.newline do discard pass
      return true
    return false
  | _ => return false

/-- Passes a word that says who may access a member. Words that say how a type parameter is used may
stand in the same place, but are faults. -/
def eatAccess : Reading (Option String) := do
  match ← eatModifier ["public", "protected", "private", "in", "out"] with
  | some word =>
    if word = "in" ∨ word = "out" then
      report (.misplacedVariance word) (← lastPlace)
      return none
    return some word
  | none => return none

end JsxWidgets.Syntax
