import JsxWidgets.Syntax.Grammar.Patterns

/-!
# The grammar of types

Type annotations and the members of interfaces. The analyses read a handful of forms of types; the
others are read for what they contain.
-/

namespace JsxWidgets.Syntax

open Reading

/-- Goes past the first character of an operator that begins with the given one. -/
def passAngle (text : String) (angle : Char) : Reading Unit := do
  let t ← peek
  match t.kind with
  | .punct p =>
    if p = text then discard pass
    else if p.toList.head? = some angle then resumeAt t.start.step
    else fail
  | _ => fail

/-- An opening angle bracket, possibly the first character of a longer operator. -/
def openAngle : Reading Unit := passAngle "<" '<'

/-- A closing angle bracket, possibly the first character of a longer operator. -/
def closeAngle : Reading Unit := passAngle ">" '>'

/-- Whether a closing angle bracket stands next. -/
def atCloseAngle : Reading Bool := do
  match (← peek).kind with
  | .punct p => return p.toList.head? = some '>'
  | _ => return false

/-- Nodes separated by commas up to a closing angle bracket. -/
def angleList (p : Reading Node) : Reading (List Node) :=
  iterate [] fun acc => do
    if ← atCloseAngle then
      closeAngle
      return .done acc.reverse
    let n ← p
    if ← eat "," then return .more (n :: acc)
    closeAngle
    return .done (n :: acc).reverse

/-- Type arguments in angle brackets; there is at least one. -/
def typeArguments (g : Rules) : Reading Node := do
  openAngle
  let args ← bracketed (angleList (g ()).type)
  if args.isEmpty then fail
  return .list args

/-- Type arguments, if an angle bracket stands next. -/
def typeArguments? (g : Rules) : Reading Node := do
  if (← at? "<") ∨ (← at? "<<") then typeArguments g else return .list []

/-! ### Type parameters -/

/-- What type parameters belong to, which decides the words that may stand in front of them. -/
inductive TypeParameterOwner where
  /-- A class. -/
  | classes
  /-- An interface or a name for a type. -/
  | types
  /-- A function, a method, or the type of one. -/
  | functions
  deriving DecidableEq, Repr, Inhabited

/-- Passes the words in front of a type parameter. Those that do not belong there are faults. -/
def typeParameterModifiers (owner : TypeParameterOwner) : Reading Unit :=
  iterate (false, false) fun (isIn, isOut) => do
    let words :=
      ["public", "private", "protected", "readonly", "abstract", "const", "override", "in", "out"]
    match ← eatModifier words with
    | none => return .done ()
    | some word =>
      let place ← lastPlace
      match word with
      -- each modifier is reported where it may not stand, and read all the same
      | "const" =>
        if owner = .types then report .misplacedConst place
        return .more (isIn, isOut)
      | "in" =>
        if owner = .functions then report (.misplacedVariance word) place
        else if isIn then report (.repeatedModifier word) place
        else if isOut then report (.modifierOrder word "out") place
        return .more (true, isOut)
      | "out" =>
        if owner = .functions then report (.misplacedVariance word) place
        else if isOut then report (.repeatedModifier word) place
        return .more (isIn, true)
      | _ =>
        report (.typeParameterModifier word) place
        return .more (isIn, isOut)

/-- A type parameter with its bound and its default. -/
def typeParameter (g : Rules) (owner : TypeParameterOwner) : Reading Node := do
  typeParameterModifiers owner
  let place ← here
  let name ← anyBinder
  let bound ← optional (eatWord "extends") (g ()).type
  let value ← optional (eat "=") (g ()).type
  return ⟨.typeParam, place, [name, bound, value]⟩

/-- Type parameters in angle brackets, if the file may state types and a bracket stands next. -/
def typeParameters? (g : Rules) (owner : TypeParameterOwner) : Reading Node := do
  if (← hasTypes) ∧ (← at? "<") then
    openAngle
    return .list (← bracketed (angleList (typeParameter g owner)))
  else return .list []

/-! ### Names -/

/-- A possibly dotted name. A point with no name behind it is a fault, and so is the word for no
value as a part of such a name. -/
def entityName : Reading Node := do
  let (place, root) ← anyWord
  if root = "void" then report .unfinishedStatement (← here)
  let name ← iterate (EntityName.simple root) fun name => do
    if ← eat "." then
      let next := (← peek).kind
      if next.isWord || next.isPrivate then
        let (_, text) ← anyWord
        return .more (.qualified name text)
      report .missingTypeName (← here)
      return .done name
    else return .done name
  return .leaf (.entity name) place

/-- The words that are types of their own. -/
def typeKeywords : List String :=
  ["any", "unknown", "number", "object", "boolean", "bigint", "string", "symbol", "void",
   "undefined", "null", "never", "intrinsic"]

/-- The parameters of a function type, in parentheses. They have no defaults. -/
def typeParams (g : Rules) : Reading Node := do
  expect "("
  let params ← bracketed (formalParameters g)
  if params.any (·.form = .defaultPat) then fail
  expect ")"
  return .list params

/-- The names that a class or an interface must not have. -/
def isTypeKeyword (name : String) : Bool := typeKeywords.contains name && name ≠ "undefined"

/-- The type of a result, which may be a statement about a parameter. -/
def resultType (g : Rules) : Reading Node := do
  let place ← here
  let predicate : Reading Node := do
    -- `asserts` is the mark if a subject follows on the same line
    let asserts ← do
      if (← atWord? "asserts") ∧ (← second).kind.isWord ∧ !(← second).newline
          ∧ (← second).kind ≠ .word "is" then
        discard pass
        pure true
      else pure false
    let subject ← do
      let t ← peek
      if ← eatWord "this" then pure Node.absent
      else
        let (_, text) ← anyWord
        pure (.leaf (.binder text) t.place)
    if (← atWord? "is") ∧ !(← peek).newline then
      discard pass
      return ⟨.predicateType, place, [subject, ← (g ()).type]⟩
    else if asserts then return ⟨.predicateType, place, [subject, .absent]⟩
    else fail
  match ← attempt predicate with
  | some n => return n
  | none => (g ()).type

/-- The type of a result behind a colon, if one stands there. -/
def resultAnnotation (g : Rules) : Reading Node := do
  if (← hasTypes) ∧ (← at? ":") then
    discard pass
    resultType g
  else return .absent

/-- Whether a parenthesis opens the parameters of a function type. -/
def opensFunctionType (g : Rules) : Reading Bool := do
  let test : Reading Unit := do
    expect "("
    if (← at? ")") ∨ (← at? "...") then return
    discard eatAccessModifier
    let next := (← peek).kind
    if next.isReference || next == .word "this" then discard pass else discard (g ()).pattern
    let k := (← peek).kind
    if k.isPunctOf [":", ",", "?", "="] then return
    expect ")"
    expect "=>"
  return (← lookahead test).isSome

/-- The type of a function behind its type parameters. -/
def functionType (g : Rules) (form : Form) : Reading Node := do
  let place ← here
  let generic ← typeParameters? g .functions
  let params ← typeParams g
  expect "=>"
  let result ← resultType g
  return ⟨form, place, [params, generic, result]⟩

/-! ### Members of object types -/

/-- The key of a member of an object type, as an expression. -/
def memberKey (g : Rules) : Reading Node := do
  let t ← peek
  let leaf (form : Form) : Reading Node := do
    discard pass
    return .leaf form t.place
  match t.kind with
  | .word text => leaf (.name text)
  | .string v => leaf (.string v)
  | .number v => leaf (.number v)
  | .hidden text =>
    let n ← leaf (.privateName text)
    report .privateSignature t.place
    return n
  | .punct "[" =>
    discard pass
    let e ← bracketed (g ()).assignment
    expect "]"
    return e
  | _ => fail

/-- Whether a member of an object type may end here. -/
def atMemberEnd : Reading Bool := do
  if ← at? "," then return true
  atStatementEnd

/-- Ends a member of an object type. -/
def memberEnd : Reading Unit := do
  if ← eat "," then return
  expectEnd

/-- Whether a signature for all keys stands next. A comma in it is a fault. -/
def atIndexSignature : Reading Bool := do
  let name ← second
  return (← at? "[") && name.kind.isReference && name.next.token.kind.isPunctOf [":", ","]

/-- A signature for all keys. -/
def indexSignature (g : Rules) : Reading Node := do
  let place ← here
  expect "["
  let (name, text) ← anyWord
  if ← eat "," then report .severalIndexParameters name else expect ":"
  let keyType ← (g ()).type
  expect "]"
  let type ← typeAnnotation g
  return ⟨.index, place, [.list [⟨.bind text, name, [keyType]⟩], type]⟩

/-- A call or a construction of an object type, from its type parameters on. -/
def callSignature (g : Rules) (place : Place) : Reading Node := do
  let generic ← typeParameters? g .functions
  let params ← typeParams g
  return ⟨.signature, place, [params, ← resultAnnotation g, generic]⟩

/-- A computed read or write of an object type, if one can be read; the faults in it are not
reported. -/
def accessorSignature? (g : Rules) (place : Place) : Reading (Option Node) :=
  attempt <| silently do
    let reads ← eatWord "get"
    unless reads do expectWord "set"
    let key ← memberKey g
    let n : Node ←
      if reads then do
        expect "("
        expect ")"
        pure ⟨.getterSig, place, [key, ← typeAnnotation g]⟩
      else do
        let params ← typeParams g
        if params.parts.isEmpty then fail
        pure ⟨.setterSig, place, key :: params.parts.take 1⟩
    -- else `get` was the name of a method
    unless ← atMemberEnd do fail
    return n

/-- A property or a method of an object type. Methods are not read only. -/
def memberSignature (g : Rules) (place : Place) (isReadonly : Bool) : Reading Node := do
  let key ← memberKey g
  let isOptional ← eat "?"
  if (← at? "(") ∨ (← at? "<") then
    if isReadonly then fail
    let generic ← typeParameters? g .functions
    let params ← typeParams g
    return ⟨.methodSig isOptional, place, [key, params, ← resultAnnotation g, generic]⟩
  return ⟨.propertySig isOptional, place, [key, ← typeAnnotation g]⟩

/-- A member of an object type, without its end. -/
def typeMember (g : Rules) : Reading Node := do
  let place ← here
  if (← at? "(") ∨ (← at? "<") then return ← callSignature g place
  if (← atWord? "new") ∧ (← second).kind.isPunctOf ["(", "<"] then
    discard pass
    return ← callSignature g place
  let isReadonly := (← eatModifier ["readonly"]).isSome
  if ← atIndexSignature then return ← indexSignature g
  if !isReadonly then
    match ← accessorSignature? g place with
    | some n => return n
    | none => pure ()
  memberSignature g place isReadonly

/-- The members of an object type, in braces. -/
def typeMembers (g : Rules) : Reading (List Node) := do
  expect "\x7b"
  bracketed <| untilClose "\x7d" do
    let n ← typeMember g
    memberEnd
    return n

/-- An object type with computed keys. -/
def mappedType (g : Rules) : Reading Node := do
  let place ← here
  expect "\x7b"
  -- a sign has to be followed by the word, without one the word is optional
  let signed (word : Reading Bool) : Reading Unit := do
    if (← eat "+") ∨ (← eat "-") then
      unless ← word do fail
    else discard word
  signed (eatWord "readonly")
  expect "["
  let name ← here
  let (_, text) ← anyWord
  expectWord "in"
  let bound ← (g ()).type
  let key ← optional (eatWord "as") (g ()).type
  expect "]"
  signed (eat "?")
  let type ← typeAnnotation g
  discard eatEnd
  expect "\x7d"
  let param : Node := ⟨.typeParam, name, [.leaf (.binder text) name, bound, .absent]⟩
  return ⟨.mappedType, place, [param, key, type]⟩

/-- What a tuple demands of an item. -/
inductive TupleItemKind where
  /-- It has to be there. -/
  | required
  /-- It may be missing. -/
  | optional
  /-- There may be any number of such items. -/
  | rest
  deriving DecidableEq, Repr, Inhabited

/-- The name of an item of a tuple type, with the colon behind it. -/
def tupleLabel : Reading Node := do
  discard (eat "...")
  let name ← anyBinder
  discard (eat "?")
  expect ":"
  return name

/-- An item of a tuple type. -/
def tupleItem (g : Rules) : Reading (Node × TupleItemKind) := do
  let place ← here
  let label : Node := .ofOption (← attempt (silently tupleLabel))
  let node (type : Node) : Node := ⟨.tupleItem, place, [label, type]⟩
  if ← eat "..." then return (node ⟨.compoundType, place, [← (g ()).type]⟩, .rest)
  let type ← (g ()).type
  if ← eat "?" then return (node ⟨.compoundType, place, [type]⟩, .optional)
  return (node type, .required)

/-- A tuple type, behind its opening bracket. No item that is required follows one that may be
missing. -/
def tupleType (g : Rules) (place : Place) : Reading Node := do
  let items ← bracketed (commaList "]" (tupleItem g))
  let kinds := items.map (·.2)
  if (kinds.dropWhile (· ≠ .optional)).contains .required then fail
  return ⟨.tupleType, place, items.map (·.1)⟩

/-- The types in the substitutions of a template. -/
def templateTypes (g : Rules) : Reading (List Node) := do
  let t ← peek
  iterate ([], t.next) fun (acc, cursor) => do
    match readPiece cursor with
    | none => fail
    | some piece =>
      resumeAt piece.next
      if piece.opensHole then
        let type ← (g ()).type
        let close ← peek
        if close.kind ≠ .punct "\x7d" then fail
        return .more (type :: acc, close.next)
      else return .done acc.reverse

/-- The words of the language that the name of a type may start with. -/
def namesType : List String := ["break", "null", "void"]

/-- The type arguments behind a name, which stand on the same line. -/
def nameArguments (g : Rules) : Reading Node := do
  if (← peek).newline then return .list []
  typeArguments? g

/-- A type named by a word that is no type of its own. A word in front of it that makes a parameter
a field is a fault. -/
def typeReference (g : Rules) : Reading Node := do
  let place ← here
  let isMarked ← eatAccessModifier
  let name ← entityName
  let args ← nameArguments g
  if isMarked then report .parameterField place
  return ⟨.reference, place, [name, args]⟩

/-- A type from another module, behind the word `import`. -/
def importedType (g : Rules) (place : Place) : Reading Node := do
  expect "("
  let source ← pass
  match source.kind with
  | .string _ => pure ()
  | _ => report .unquotedModule source.place
  let mut attributes : List Node := []
  if ← eat "," then
    unless ← at? ")" do
      expect "\x7b"
      expectWord "with"
      expect ":"
      let object ← (g ()).assignment
      attributes := object.parts
      discard (eat ",")
      expect "\x7d"
  expect ")"
  if ← eat "." then discard entityName
  return ⟨.compoundType, place, [← typeArguments? g, .list attributes]⟩

/-- A type that starts with a word. -/
def wordType (g : Rules) (text : String) : Reading Node := do
  let place ← here
  let dotted := (← second).kind == .punct "."
  if text = "true" ∨ text = "false" then
    discard pass
    return .leaf (.boolType (text = "true")) place
  -- before a dot the word is the first name of an entity
  if typeKeywords.contains text ∧ !dotted then
    discard pass
    return .leaf (.keyword text) place
  match text with
  | "this" =>
    discard pass
    return .leaf .compoundType place
  | "typeof" =>
    discard pass
    if ← atWord? "import" then return ⟨.compoundType, place, [← (g ()).type]⟩
    let name ← entityName
    return ⟨.queryType, place, [name, ← nameArguments g]⟩
  | "import" =>
    discard pass
    importedType g place
  | _ =>
    if text = "let" ∨ (reservedWords.contains text ∧ !namesType.contains text) then fail
    typeReference g

/-- A type without operators. -/
def primaryType (g : Rules) : Reading Node := do
  let t ← peek
  match t.kind with
  | .string v =>
    discard pass
    return .leaf (.stringType v) t.place
  | .number v =>
    discard pass
    return .leaf (.numberType false v) t.place
  | .bigint _ =>
    discard pass
    return .leaf .literalType t.place
  | .punct "-" =>
    discard pass
    match (← pass).kind with
    | .number v => return .leaf (.numberType true v) t.place
    | .bigint _ => return .leaf .literalType t.place
    | _ => fail
  | .punct "`" => return ⟨.literalType, t.place, ← templateTypes g⟩
  | .punct "\x7b" =>
    -- a mapped type starts like an object type, so it is tried first
    match ← attempt (mappedType g) with
    | some n => return n
    | none => return ⟨.objectType, t.place, ← typeMembers g⟩
  | .punct "[" =>
    discard pass
    tupleType g t.place
  | .punct "(" =>
    discard pass
    let inner ← bracketed (g ()).type
    expect ")"
    return ⟨.parenType, t.place, [inner]⟩
  | .word text => wordType g text
  | _ => fail

/-- A type with brackets behind it. -/
def arrayType (g : Rules) : Reading Node := do
  let place ← here
  let first ← primaryType g
  iterate first fun type => do
    if (← at? "[") ∧ !(← peek).newline then
      discard pass
      if ← eat "]" then return .more ⟨.arrayType, place, [type]⟩
      let key ← bracketed (g ()).type
      expect "]"
      return .more ⟨.compoundType, place, [type, key]⟩
    else return .done type

/-- A type with an operator in front of it. The operators are gathered first. -/
def operatorType (g : Rules) : Reading Node := do
  let place ← here
  let count ← iterate 0 fun n => do
    let t ← peek
    let k := (← second).kind
    let ahead := k.isWord || k.isPunctOf ["(", "[", "\x7b", "`"]
    match t.kind with
    | .word text =>
      if ["keyof", "unique", "readonly"].contains text ∧ ahead then
        discard pass
        return .more (n + 1)
      else return .done n
    | _ => return .done n
  let inner ←
    if (← atWord? "infer") ∧ (← second).kind.isWord then do
      discard pass
      let name ← here
      let (_, text) ← anyWord
      -- A bound is read only if it does not turn out to be the condition around.
      let bound ← attempt <| silently do
        expectWord "extends"
        let b ← inScope (fun s => { s with plainBounds := true }) (g ()).type
        if !(← scope).plainBounds ∧ (← at? "?") then fail
        return b
      pure ⟨.inferType, place,
        [⟨.typeParam, name, [.leaf (.binder text) name, .ofOption bound, .absent]⟩]⟩
    else arrayType g
  return if count = 0 then inner else ⟨.compoundType, place, [inner]⟩

/-- Types joined by an operator, which may also stand in front of the first. -/
def joinedType (op : String) (form : Form) (p : Reading Node) : Reading Node := do
  let place ← here
  discard (eat op)
  let first ← p
  let types ← iterate [first] fun acc => do
    if ← eat op then
      let n ← p
      return .more (n :: acc)
    else return .done acc.reverse
  match types with
  | [one] => return one
  | _ => return ⟨form, place, types⟩

/-- A type without a condition. -/
def unconditionalType (g : Rules) : Reading Node := do
  let place ← here
  if ← at? "<" then return ← functionType g .fnType
  if ← at? "(" then
    if ← opensFunctionType g then return ← functionType g .fnType
  if (← atWord? "abstract") ∧ (← second).kind = .word "new" then discard pass
  if ← atWord? "new" then
    discard pass
    let n ← functionType g .makerType
    return ⟨n.form, place, n.parts⟩
  joinedType "|" .unionType (joinedType "&" .interType (operatorType g))

/-- A type. -/
def typeRule (g : Rules) : Reading Node := do
  let place ← here
  let subject ← unconditionalType g
  if (← atWord? "extends") ∧ !(← peek).newline ∧ !(← scope).plainBounds then
    discard pass
    let bound ← inScope (fun s => { s with plainBounds := true }) (g ()).type
    expect "?"
    let yes ← inScope (fun s => { s with plainBounds := false }) (g ()).type
    expect ":"
    let no ← inScope (fun s => { s with plainBounds := false }) (g ()).type
    return ⟨.compoundType, place, [subject, bound, yes, no]⟩
  else return subject

end JsxWidgets.Syntax
