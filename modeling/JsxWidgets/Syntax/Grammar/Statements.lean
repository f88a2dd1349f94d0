import JsxWidgets.Syntax.Grammar.Expressions

/-!
# The grammar of statements and declarations

A statement starts with a word of its own, with a brace, or with an expression; an expression that
is a name with a colon behind it is a label. Declarations are in place in lists of statements only;
a function or class that stands elsewhere is read all the same, but is a fault. Declarations of
types, enumerations and namespaces start with words that are identifiers too, so the word behind
them decides.
-/

namespace JsxWidgets.Syntax

open Reading

/-! ### Variables -/

/-- How variables are declared by a word. -/
def variableKind? : TokenKind → Option VariableKind
  | .word "var" => some .var
  | .word "let" => some .let
  | .word "const" => some .const
  | _ => none

/-- Whether the word `let` declares a variable: it does so in front of a name or a pattern. -/
def letDeclares : Reading Bool := do
  match (← second).kind with
  | .word w => return !reservedWords.contains w
  | .punct p => return p = "[" || p = "\x7b"
  | _ => return false

/-- Whether the token that stands next declares variables. -/
def declaresVariables : Reading Bool := do
  match variableKind? (← peek).kind with
  | some .let => letDeclares
  | some _ => return true
  | none => return false

/-- Whether a loop over keys or values goes on here. -/
def atEach : Reading Bool := return (← atWord? "in") || (← atWord? "of")

/-- Whether a pattern is a plain name. -/
def Node.isBinding (pat : Node) : Bool :=
  match pat.form with
  | .bind _ => true
  | _ => false

/-- A variable with its value. Only in the head of a loop over keys or values may a pattern have no
value, and a constant only in the head of a loop or where it is declared to exist elsewhere. -/
def declarator (g : Rules) (kind : VariableKind) (inHead : Bool) : Reading Node := do
  let place ← here
  if kind ≠ .var ∧ (← atWord? "let") then fail
  let bare ← (g ()).pattern
  if bare.isBinding ∧ (← hasTypes) then discard (eat "!")
  let pat := bare.withType (← typeAnnotation g)
  let isEach ← atEach
  -- the loop brings the value of the variable
  if inHead ∧ isEach then return ⟨.declarator, place, [pat, .absent]⟩
  let isHidden ← eatNull
  if !isHidden ∧ (← at? "=") then
    discard pass
    return ⟨.declarator, place, [pat, ← (g ()).assignment]⟩
  if !(← scope).ambient then
    if kind = .const ∧ !inHead then report .constantWithoutValue place
    else if !pat.isBinding then fail
  return ⟨.declarator, place, [pat, .absent]⟩

/-- Whether a loop over keys or values has no variable here, but goes on with what it goes over. -/
def lacksLoopVariable (g : Rules) : Reading Bool := do
  if !(← hasTypes) ∨ !(← atEach) then return false
  let test : Reading Unit := do
    discard pass
    discard (g ()).assignment
    expect ")"
  return (← lookahead test).isSome

/-- Variables, without the end of the statement. -/
def declarators (g : Rules) (inHead : Bool) : Reading Node := do
  let t ← peek
  match variableKind? t.kind with
  | none => fail
  | some kind =>
    discard pass
    -- a loop head may lack its variable, and the loop is read nevertheless
    if inHead then
      if ← lacksLoopVariable g then
        report .missingLoopVariable t.next.place
        return ⟨.varDecl kind, t.place, []⟩
    let nodes ← inScope (fun s => { s with allowsIn := kind ≠ .var || !inHead }) <|
      iterate [] fun acc => do
        if (← at? ";") ∨ (← atEnd?) then
          let last ← lastPlace
          report .missingVariable (if acc.isEmpty then t.next.place else last)
          return .done acc.reverse
        let n ← declarator g kind inHead
        if ← eat "," then return .more (n :: acc)
        return .done (n :: acc).reverse
    return ⟨.varDecl kind, t.place, nodes⟩

/-- Ends a declaration of variables. If something else stands there, that is a fault, and all up to
the next possible end is passed over. -/
def endVariables (g : Rules) : Reading Unit := do
  if ← eatEnd then return
  report .unfinishedStatement (← spot)
  discard (tolerate (g ()).expression)
  iterate () fun _ => do
    if ← eatEnd then return .done ()
    discard pass
    match (← peek).kind with
    | .bad _ => return .done ()
    | _ => return .more ()

/-- A declaration of variables. -/
def variableDeclaration (g : Rules) : Reading Node := do
  let n ← declarators g false
  endVariables g
  return n

/-! ### Variables that own resources -/

/-- Whether variables that own resources are declared by the word that stands next: it does so in
front of a name on the same line. -/
def ownsResources : Reading Bool := do
  let name ← second
  return name.kind.isReference && !name.newline

/-- Variables that own resources, from the word that introduces them on. Only files with types know
them, each has a value, and none is a pattern. The declaration starts at the given place. -/
def resourceVariables (g : Rules) (place : Place) : Reading Node := do
  discard pass
  let nodes ← iterate [] fun acc => do
    if ← at? ";" then
      report .missingVariable (← lastPlace)
      return .done acc.reverse
    let n ← declarator g .var false
    if ← eat "," then return .more (n :: acc)
    return .done (n :: acc).reverse
  unless ← hasTypes do report .unknownResource place
  for n in nodes do
    match n.parts with
    | [pat, value] =>
      unless pat.isBinding do report .resourcePattern place
      if value.form = .absent then report .resourceWithoutValue place
    | _ => pure ()
  expectEnd
  return ⟨.resources, place, nodes⟩

/-- A declaration of variables that own resources, if one stands here. They may be released
asynchronously, which a word in front says; where no variable follows that word, it waits for a
promise. -/
def resourceStatement? (g : Rules) : Reading (Option Node) := do
  let place ← here
  let declaration : Reading Node := do
    let n ← resourceVariables g place
    return ⟨.declStmt, place, [n]⟩
  if ← atWord? "using" then
    if ← ownsResources then return some (← declaration) else return none
  if (← atWord? "await") ∧ (← second).kind = .word "using" then
    discard pass
    if ← ownsResources then return some (← declaration)
    -- no declaration after all: `using` is a variable that is waited for
    let e ← awaited g place
    let e ← withIn ((g ()).operators e 0)
    discard eatEnd
    return some ⟨.exprStmt, place, [e]⟩
  return none

/-- The variable that owns a resource in the head of a loop over keys or values, if the expression
that has been read turns out to introduce it. -/
def resourceHead? (head : Node) : Reading (Option Node) := do
  let introduces : Bool :=
    match head with
    | ⟨.name "using", _, _⟩ | ⟨.await, _, [⟨.name "using", _, _⟩]⟩ => true
    | _ => false
  let next := (← second).kind
  let isEach := next == .word "of" || next == .word "in"
  -- two names in a row can only be a declaration
  if (← hasTypes) ∧ introduces ∧ isEach ∧ !(← atWord? "of") then
    let (p, name) ← bindingIdentifier
    if ← atWord? "in" then report .resourceKey head.place
    let pat : Node := ⟨.bind name, p, [.absent]⟩
    return some ⟨.resources, head.place, [⟨.declarator, head.place, [pat, .absent]⟩]⟩
  return none

/-! ### Declarations of types, enumerations and namespaces -/

/-- A declaration of an interface. A second list of parents is passed over. -/
def interfaceDeclaration (g : Rules) : Reading Node := do
  let place ← here
  expectWord "interface"
  let (p, text) ← anyWord
  if isTypeKeyword text then report .reservedInterfaceName p
  let name : Node := .leaf (.binder text) p
  let generic ← typeParameters? g .types
  let parents ← if ← eatWord "extends" then heritages g else pure (.list [])
  if ← atWord? "extends" then
    report .repeatedExtends (← spot)
    -- the repeated clause is skipped up to the members
    iterate () fun _ => do
      if (← at? "\x7b") ∨ (← atEnd?) then return .done ()
      discard pass
      return .more ()
  return ⟨.interface, place, [name, generic, parents, .list (← typeMembers g)]⟩

/-- A name for a type. -/
def typeNameDeclaration (g : Rules) : Reading Node := do
  let place ← here
  expectWord "type"
  let name ← anyBinder
  let generic ← typeParameters? g .types
  expect "="
  let type ← (g ()).type
  expectEnd
  return ⟨.typeName, place, [name, generic, type]⟩

/-- The name of a member of an enumeration. Names that are numbers or computed are faults, but a
text may stand in brackets. -/
def enumMemberName (g : Rules) : Reading Node := do
  let t ← peek
  match t.kind with
  | .string _ =>
    discard pass
    return .absent
  | .number _ =>
    discard pass
    report .numericEnumMember t.place
    return .absent
  | .punct "[" =>
    discard pass
    let e ← bracketed (g ()).expression
    expect "]"
    let isText : Bool :=
      match e.form with
      | .string _ => true
      | .template _ => e.parts.isEmpty
      | _ => false
    unless isText do report .computedEnumMember t.place
    return .absent
  | _ => anyBinder

/-- The members of an enumeration, behind the opening brace. Where a comma is missing that is a
fault; behind a member without a value the token that stands there is taken for one. -/
def enumMembers (g : Rules) : Reading (List Node) :=
  iterate [] fun acc => do
    if ← eat "\x7d" then return .done acc.reverse
    let place ← here
    let name ← enumMemberName g
    let value ← optional (eat "=") (g ()).assignment
    let n : Node := ⟨.enumMember, place, [name, value]⟩
    if ← eat "," then return .more (n :: acc)
    if ← at? "\x7d" then return .more (n :: acc)
    -- a missing comma is reported at the value or at the stray token
    if value.form ≠ .absent then
      report (.missingToken "," (shown (← peek))) (← spot)
    else
      let stray ← here
      discard pass
      report .unfinishedStatement stray
    return .more (n :: acc)

/-- An enumeration. -/
def enumDeclaration (g : Rules) : Reading Node := do
  let place ← here
  discard (eatWord "const")
  expectWord "enum"
  let name ← anyBinder
  expect "\x7b"
  return ⟨.enumDecl, place, name :: (← enumMembers g)⟩

/-- The items of a namespace in braces. -/
def spaceItems (g : Rules) : Reading Node := do
  expect "\x7b"
  return .list (← bracketed (untilBrace (g ()).moduleItem))

/-- A namespace; a module may be named by a text and may have no items. -/
def spaceDeclaration (g : Rules) : Reading Node := do
  let place ← here
  if ← eatWord "global" then return ⟨.space, place, [.list [], ← spaceItems g]⟩
  discard pass
  match (← peek).kind with
  | .string _ =>
    discard pass
    if ← at? "\x7b" then return ⟨.space, place, [.list [], ← spaceItems g]⟩
    expectEnd
    return ⟨.space, place, [.list [], .list []]⟩
  | _ =>
    let first ← anyBinder
    let names ← iterate [first] fun acc => do
      if ← eat "." then
        let n ← anyBinder
        return .more (n :: acc)
      else return .done acc.reverse
    return ⟨.space, place, [.list names, ← spaceItems g]⟩

/-- A declaration that only files with types have, if one stands here. If its first word has been
passed as such, the next word may stand on a new line. -/
def typedDeclaration? (g : Rules) (mayBreak : Bool) : Reading (Option Node) := do
  if !(← hasTypes) then return none
  let t ← peek
  let next ← second
  let named := next.kind.isWord && (mayBreak || !next.newline)
  let read (p : Reading Node) : Reading (Option Node) := some <$> p
  match t.kind with
  | .word "enum" => read (enumDeclaration g)
  | .word "const" =>
    if next.kind = .word "enum" then read (enumDeclaration g) else return none
  | .word "abstract" =>
    if named ∧ next.kind = .word "class" then read (classDeclaration g) else return none
  | .word "interface" => if named then read (interfaceDeclaration g) else return none
  | .word "type" => if named then read (typeNameDeclaration g) else return none
  | .word "namespace" => if named then read (spaceDeclaration g) else return none
  | .word "module" =>
    let isQuoted : Bool :=
      match next.kind with
      | .string _ => !next.newline
      | _ => false
    if named || isQuoted then read (spaceDeclaration g) else return none
  | .word "global" =>
    if next.kind = .punct "\x7b" then read (spaceDeclaration g) else return none
  | _ => return none

/-- A declaration of something that exists elsewhere, behind its first word. -/
def ambientDeclaration? (g : Rules) : Reading (Option Node) :=
  inScope (fun s => { s with ambient := true }) do
    match ← typedDeclaration? g true with
    | some n => return some n
    | none =>
      if ← atFunction then return some (← functionDeclaration g)
      if ← atWord? "class" then return some (← classDeclaration g)
      if ← declaresVariables then return some (← variableDeclaration g)
      return none

/-- A declaration of something that exists elsewhere, if one stands here. -/
def declared? (g : Rules) : Reading (Option Node) := do
  let t ← peek
  if (← hasTypes) ∧ (← atWord? "declare") ∧ (← second).kind.isWord ∧ !(← second).newline then
    let found ← attempt do
      discard pass
      match ← ambientDeclaration? g with
      | some n => return n
      | none => fail
    return found.map fun n => ⟨n.form, t.place, n.parts⟩
  else return none

/-! ### Loops and choices -/

/-- An expression in parentheses. -/
def inParens (g : Rules) : Reading Node := do
  expect "("
  let e ← bracketed (g ()).expression
  expect ")"
  return e

/-- The statement that a loop repeats. -/
def loopBody (g : Rules) : Reading Node :=
  inScope (fun s => { s with mayBreak := true, mayContinue := true }) ((g ()).statement false)

/-- The rest of a loop over keys or values, from the word behind the variable on. Only a loop over
values may wait. -/
def eachRest (g : Rules) (place : Place) (waits : Bool) (head : Node) : Reading Node := do
  let subject ←
    if ← eatWord "of" then withIn (g ()).assignment
    else do
      expectWord "in"
      if waits then fail
      withIn (g ()).expression
  expect ")"
  return ⟨.forEach, place, [head, subject, ← loopBody g]⟩

/-- The rest of a loop with a counter, from the first semicolon on. Such a loop does not wait. -/
def counterRest (g : Rules) (place : Place) (waits : Bool) (start : Node) : Reading Node := do
  if waits then fail
  expect ";"
  let test ← optional (return !(← at? ";")) (withIn (g ()).expression)
  expect ";"
  let step ← optional (return !(← at? ")")) (withIn (g ()).expression)
  expect ")"
  return ⟨.forLoop, place, [start, test, step, ← loopBody g]⟩

/-- Whether a pattern states its type. -/
def Node.isTyped (pat : Node) : Bool := pat.parts.getLast?.any (·.form ≠ .absent)

/-- Reports what is wrong with the variables of a loop over keys or values: there is one, without a
value and without a type, and for keys it is no pattern. -/
def checkLoopVariables (declarators : List Node) (overKeys : Bool) : Reading Unit := do
  let typed ← hasTypes
  match declarators with
  | [⟨_, _, [pat, value]⟩] =>
    if value.form ≠ .absent then report .loopVariableValue pat.place
    if typed ∧ pat.isTyped then report .loopVariableType pat.place
  | _ => for d in declarators.drop 1 do report .extraLoopVariable d.place
  if typed ∧ overKeys then
    for d in declarators do
      match d.parts with
      | pat :: _ => if !pat.isBinding then report .loopKeyPattern pat.place
      | [] => pure ()

/-- A loop with a head in parentheses. -/
def forStatement (g : Rules) : Reading Node := do
  let place ← here
  expectWord "for"
  let waits ← eatWord "await"
  expect "("
  -- a head without an initial part is one that counts
  if ← at? ";" then return ← counterRest g place waits .absent
  let inHead (s : Scope) : Scope :=
    { s with allowsIn := false, inLoopHead := true, inAwaitHead := waits }
  if ← declaresVariables then
    let head ← inScope inHead (declarators g true)
    if ← atEach then
      checkLoopVariables head.parts (← atWord? "in")
      return ← eachRest g place waits head
    return ← counterRest g place waits head
  let head ← inScope inHead (g ()).expression
  match ← resourceHead? head with
  | some n => return ← eachRest g place waits n
  | none => pure ()
  if ← atEach then
    let overKeys ← atWord? "in"
    let target ← loopTarget head
    let isPattern : Bool :=
      match target.form with
      | .arrayPat | .objectPat | .invalid => true
      | _ => false
    if overKeys ∧ isPattern ∧ (← hasTypes) then report .loopKeyPattern target.place
    eachRest g place waits target
  else counterRest g place waits head

/-- A case of a choice, and whether it is the default. There is one default at most. -/
def switchCase (g : Rules) (hasDefault : Bool) : Reading (Node × Bool) := do
  let place ← here
  let isCase ← eatWord "case"
  let test ←
    if isCase then withIn (g ()).expression
    else do
      expectWord "default"
      if hasDefault then fail
      pure .absent
  expect ":"
  let code ← iterate [] fun acc => do
    if (← at? "\x7d") ∨ (← atWord? "case") ∨ (← atWord? "default") ∨ (← atEnd?) then
      return .done acc.reverse
    let n ← (g ()).statement true
    return .more (n :: acc)
  return (⟨.case, place, test :: code⟩, !isCase)

/-- A choice between cases. -/
def switchStatement (g : Rules) : Reading Node := do
  let place ← here
  expectWord "switch"
  let subject ← inParens g
  expect "\x7b"
  let cases ← inScope (fun s => { s with mayBreak := true }) <|
    iterate ([], false) fun (acc, hasDefault) => do
      if ← eat "\x7d" then return .done acc.reverse
      let (n, isDefault) ← switchCase g hasDefault
      return .more (n :: acc, hasDefault || isDefault)
  return ⟨.switch, place, subject :: cases⟩

/-- A choice between two statements. -/
def ifStatement (g : Rules) : Reading Node := do
  let place ← here
  expectWord "if"
  let test ← inParens g
  let yes ← (g ()).statement false
  let no ← optional (eatWord "else") ((g ()).statement false)
  return ⟨.branch, place, [test, yes, no]⟩

/-! ### Jumps and exceptions -/

/-- A jump out of a statement or to its next round. -/
def jumpStatement : Reading Node := do
  let t ← pass
  let isBreak := t.kind == .word "break"
  let label ←
    if ← eatEnd then pure none
    else do
      let (place, text) ← identifier
      expectEnd
      pure (some (place, text))
  let s ← scope
  let unknown := label.any fun (_, text) => !s.labels.contains text
  -- the two kinds of jump ask in different orders whether they may stand here
  if isBreak then
    if unknown then report .unknownBreakLabel t.place
    else if !s.mayBreak then report .strayBreak t.place
  else if !s.mayContinue then report .strayContinue t.place
  else if unknown then report .unknownContinueLabel t.place
  return ⟨.jump, t.place,
    [.ofOption (label.map fun (place, text) => .leaf (.binder text) place)]⟩

/-- The end of a function with its value. -/
def returnStatement (g : Rules) : Reading Node := do
  let place ← here
  expectWord "return"
  let isEmpty ← if ← eatNull then pure true else atStatementEnd
  let value ← if isEmpty then pure .absent else withIn (g ()).expression
  expectEnd
  unless (← scope).inFunction do report .strayReturn place
  return ⟨.give, place, [value]⟩

/-- A handler of exceptions. -/
def handlerClause (g : Rules) : Reading Node := do
  let place ← here
  expectWord "catch"
  let pattern ←
    if ← eat "(" then do
      let pat ← (g ()).pattern
      let pat := pat.withType (← typeAnnotation g)
      expect ")"
      pure pat
    else pure .absent
  return ⟨.handler, place, [pattern, ← body g]⟩

/-- What is done at the end whether or not there was an exception. -/
def cleanupClause? (g : Rules) : Reading Node := optional (eatWord "finally") (body g)

/-- The handling of exceptions. -/
def tryStatement (g : Rules) : Reading Node := do
  let place ← here
  expectWord "try"
  let code ← body g
  let behind ← here
  let handler ← optional (atWord? "catch") (handlerClause g)
  let cleanup ← cleanupClause? g
  if handler.form = .absent ∧ cleanup.form = .absent then report .unfinishedStatement behind
  return ⟨.attempt, place, [code, handler, cleanup]⟩

/-- A handler of exceptions or what is done at the end, without a statement that they belong to.
They are passed over as far as they can be read. -/
def strayHandler (g : Rules) : Reading Node := do
  let place ← here
  report .unfinishedStatement place
  discard (tolerate (optional (atWord? "catch") (handlerClause g)))
  discard (tolerate (cleanupClause? g))
  return ⟨.exprStmt, place, [.invalid place]⟩

/-- A statement with a label, behind the colon. -/
def labeledRest (g : Rules) (place : Place) (text : String) : Reading Node := do
  let known := (← scope).labels.count text
  let inner ← inScope (fun s => { s with labels := text :: s.labels, mayBreak := true }) do
    let t ← peek
    if ← atWord? "function" then
      let isGenerator := (← second).kind = .punct "*"
      let n ← functionDeclaration g
      report .labeledFunction t.place
      if isGenerator then report .labeledGenerator t.place
      return ⟨.declStmt, t.place, [n]⟩
    (g ()).statement false
  -- one report for each label of that name around the statement
  for _ in List.replicate known () do report (.duplicateLabel text) place
  return ⟨.labeled, place, [.leaf (.binder text) place, inner]⟩

/-! ### Statements -/

/-- An interface behind a word that does not belong there, if one stands behind the given name. -/
def markedInterface? (g : Rules) (name : Node) : Reading (Option Node) := do
  let isMark := name.form == .name "abstract" || name.form == .name "static"
  if isMark ∧ (← hasTypes) ∧ (← atWord? "interface") then
    report .interfaceModifier name.place
    let n ← interfaceDeclaration g
    return some ⟨.declStmt, name.place, [n]⟩
  return none

/-- An expression as a statement, or a statement with a label. If an operator stands behind the
expression, that is a fault, and the statement goes on with it. -/
def expressionStatement (g : Rules) : Reading Node := do
  let place ← here
  let e ← withIn (g ()).expression
  match e.form with
  | .name text => if ← eat ":" then return ← labeledRest g e.place text
  | _ => pure ()
  match ← markedInterface? g e with
  | some n => return n
  | none => pure ()
  if ← eatEnd then return ⟨.exprStmt, place, [e]⟩
  -- an operator behind an expression that takes none is reported and read as one that does
  if ← atStrayOperator then
    report .unfinishedStatement (← spot)
    return ⟨.exprStmt, place, [← (g ()).operators e 0]⟩
  failAt ";"

/-- The import of a module at run time, or what is known of this module, as a statement. It needs no
end. -/
def importStatement (g : Rules) : Reading Node := do
  let place ← here
  unless (← second).kind.isPunctOf ["(", "."] do fail
  let e ← (g ()).expression
  discard eatEnd
  return ⟨.exprStmt, place, [e]⟩

/-- A declaration as a statement. -/
def asStatement (p : Reading Node) : Reading Node := do
  let n ← p
  return ⟨.declStmt, n.place, [n]⟩

/-- A statement that starts with the given word, if there are such statements. -/
def wordStatement? (g : Rules) (place : Place) (text : String) : Option (Reading Node) :=
  match text with
  | "if" => some (ifStatement g)
  | "for" => some (forStatement g)
  | "while" => some do
    discard pass
    let test ← inParens g
    return ⟨.whileLoop, place, [test, ← loopBody g]⟩
  | "do" => some do
    discard pass
    let code ← loopBody g
    expectWord "while"
    let test ← inParens g
    discard eatEnd
    return ⟨.doLoop, place, [test, code]⟩
  | "switch" => some (switchStatement g)
  | "break" => some jumpStatement
  | "continue" => some jumpStatement
  | "return" => some (returnStatement g)
  | "throw" => some do
    discard pass
    if (← peek).newline then fail
    let e ← withIn (g ()).expression
    expectEnd
    return ⟨.raise, place, [e]⟩
  | "try" => some (tryStatement g)
  | "catch" => some (strayHandler g)
  | "finally" => some (strayHandler g)
  | "with" => some do
    if ← hasTypes then report .untypedWith place
    report .withStatement place
    discard pass
    let object ← inParens g
    let inner ← inScope (fun s => { s with inFunction := true }) ((g ()).statement false)
    return ⟨.within, place, [object, inner]⟩
  | "debugger" => some do
    discard pass
    expectEnd
    return .leaf .empty place
  | "import" => some (importStatement g)
  | _ => none

/-- A statement. A declaration is in place only if the argument says so. -/
def statementRule (g : Rules) (mayDeclare : Bool) : Reading Node := do
  let t ← peek
  match t.kind with
  | .punct "\x7b" => return ⟨.block, t.place, ← statements g⟩
  | .punct ";" =>
    discard pass
    return .leaf .empty t.place
  | .word text =>
    -- a resource is declared by two names in a row, so it is tried first
    if mayDeclare then
      match ← resourceStatement? g with
      | some n => return n
      | none => pure ()
    match wordStatement? g t.place text with
    | some p => p
    | none =>
      if text = "function" ∨ text = "class" then
        unless mayDeclare do report .misplacedDeclaration t.place
        return ← asStatement (if text = "class" then classDeclaration g else functionDeclaration g)
      if ← atFunction then return ← asStatement (functionDeclaration g)
      match ← typedDeclaration? g false with
      | some n => return ⟨.declStmt, n.place, [n]⟩
      | none =>
        match ← declared? g with
        | some n => return ⟨.declStmt, n.place, [n]⟩
        | none =>
          if (← declaresVariables) ∧ (mayDeclare ∨ text = "var") then
            return ← asStatement (variableDeclaration g)
          expressionStatement g
  | _ => expressionStatement g

end JsxWidgets.Syntax
