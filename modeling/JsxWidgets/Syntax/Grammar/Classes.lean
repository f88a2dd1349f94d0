import JsxWidgets.Syntax.Grammar.Functions

/-!
# The grammar of classes

A class has a parent, interfaces and members. In front of the key of a member stand words that say
what kind of member it is; each of them may also be a key itself, which what stands behind it
decides.
-/

namespace JsxWidgets.Syntax

open Reading

/-! ### Words in front of members -/

/-- The words in front of a member of a class. -/
structure Modifiers where
  /-- Where the member starts. -/
  place : Place
  /-- Where it is said to exist elsewhere. -/
  declareAt : Option Place := none
  /-- The word that says who may access the member. -/
  access : Option String := none
  /-- Where the first `static` stands. -/
  staticAt : Option Place := none
  /-- The member belongs to the class itself. -/
  isStatic : Bool := false
  /-- The member is abstract. -/
  isAbstract : Bool := false
  /-- The member replaces one of the parent. -/
  isOverride : Bool := false
  /-- The member is a field that is accessed by methods made for it. -/
  isAccessor : Bool := false
  /-- Where the member is said to be read only. -/
  readonlyAt : Option Place := none
  /-- Where the last of the words stands that only files with types have. -/
  lastAt : Option Place := none

/-- Whether a field goes on behind its key. A line break ends a field only if the argument says
so. -/
def atField (mayBreak : Bool) : Reading Bool := do
  if (← hasTypes) ∧ ((← at? "!") ∨ (← at? ":")) then return true
  if (← at? "=") ∨ (← at? "\x7d") then return true
  if mayBreak then atStatementEnd else at? ";"

/-- Adds a word that only files with types have, and which stands at the given place. -/
def Modifiers.add (m : Modifiers) (word : String) (p : Place) : Reading Modifiers := do
  let m := { m with lastAt := some p }
  match word with
  | "abstract" =>
    if m.isAbstract then report (.repeatedModifier word) p
    else if m.isOverride then report (.modifierOrder word "override") p
    return { m with isAbstract := true }
  | "override" =>
    if m.isOverride then report (.repeatedModifier word) p
    else if m.readonlyAt.isSome then report (.modifierOrder word "readonly") p
    else if m.declareAt.isSome then report (.modifierClash word "declare") p
    else if !(← scope).hasParent then report .strayOverride p
    return { m with isOverride := true }
  | "readonly" =>
    if m.readonlyAt.isSome then
      report (.repeatedModifier word) p
      return m
    return { m with readonlyAt := some p }
  | "static" =>
    if m.isOverride then report (.modifierOrder word "override") p
    return { m with isStatic := true }
  | _ => return m

/-- Passes the words that only files with types have, behind `static`. -/
def typedModifiers (m : Modifiers) : Reading Modifiers :=
  iterate m fun m => do
    let opensInitializer := (← atWord? "static") && (← second).kind == .punct "\x7b"
    if opensInitializer then return .done m
    match ← eatModifier ["abstract", "readonly", "override", "static"] with
    | some word => return .more (← m.add word (← lastPlace))
    | none => return .done m

/-! ### Members -/

/-- The key of a member. -/
def classKey (g : Rules) : Reading Node := do
  let t ← peek
  match t.kind with
  | .hidden text =>
    discard pass
    if text = "constructor" then report .privateConstructor t.place
    return .leaf (.hidden text) t.place
  | _ => propertyKey g

/-- Whether a key is that of the constructor. -/
def Node.isMakerKey (key : Node) : Bool :=
  key.form = .word "constructor" || key.form = .stringKey "constructor"

/-- Whether a key is a private name. -/
def Node.isHidden (key : Node) : Bool :=
  match key.form with
  | .hidden _ => true
  | _ => false

/-- A field behind its key. -/
def fieldRest (g : Rules) (m : Modifiers) (key : Node) (isOptional : Bool) : Reading Node := do
  if key.isMakerKey then fail
  if key.isHidden then
    if m.declareAt.isSome then report (.privateModifier "declare") key.place
    if m.isAbstract then report (.privateModifier "abstract") key.place
  if (← hasTypes) ∧ !isOptional then discard (eat "!")
  let type ← typeAnnotation g
  inScope (fun s => { s with allowsIn := true, inField := true }) do
    let value ← optional (eat "=") (g ()).assignment
    unless ← eatEnd do report .unfinishedStatement (← spot)
    -- what an auto accessor may not have is not looked at here
    unless m.isAccessor do
      if key.isHidden then
        if m.access.isSome then report .privateAccess m.place
      else if m.isAbstract ∧ value.form ≠ .absent then report .abstractValue m.place
    return ⟨if m.isAccessor then .accessor else .field, m.place, [key, value, type]⟩

/-- A method behind its key; the argument reads its parameters. -/
def methodRest (g : Rules) (m : Modifiers) (key : Node) (isAsync isGenerator : Bool)
    (parameters : Reading (List Node)) : Reading Node := do
  let fn ← asMember (functionRest g isAsync isGenerator parameters key.place)
  if key.isHidden then
    if m.access.isSome then report .privateAccess m.place
  else
    match fn.parts with
    | [_, code, _, _] =>
      if m.isAbstract ∧ code.form ≠ .absent then report .abstractBody m.place
    | _ => pure ()
  return ⟨.method, m.place, [key, fn]⟩

/-- A parameter of a constructor, and whether it is a field too. -/
def constructorParameter (g : Rules) : Reading (Node × Bool) := do
  let access ← eatAccess
  let overrides ← eatModifier ["override"]
  let fixed ← eatModifier ["readonly"]
  let n ← formalParameter g
  if access.isNone ∧ overrides.isNone ∧ fixed.isNone then return (n, false)
  match n.form with
  | .bind _ | .defaultPat => return (n, true)
  | _ => fail

/-- The parameter of a constructor for all that is left, behind its points. -/
def constructorRestParameter (g : Rules) (place : Place) : Reading Node := do
  let inner ← (g ()).pattern
  return ⟨.rest, place, [inner, ← typeAnnotation g]⟩

/-- Reads the type parameters that a constructor should not have. -/
def constructorTypeParameters (g : Rules) : Reading Unit := do
  let place ← here
  if (← second).kind = .punct ">" then
    discard pass
    let closing ← here
    discard pass
    report .emptyTypeParameters place
    report .constructorTypeParameter closing
  else
    let generic ← typeParameters? g .functions
    for p in generic.parts do report .constructorTypeParameter p.place

/-- A constructor behind its key. -/
def constructorRest (g : Rules) (m : Modifiers) (key : Node) : Reading Node := do
  let typed ← hasTypes
  if typed ∧ m.isOverride then report (.constructorModifier "override") m.place
  if typed ∧ (← at? "<") then constructorTypeParameters g
  expect "("
  let params ← bracketed (parameterList (constructorRestParameter g) (constructorParameter g))
  expect ")"
  if typed ∧ (← at? ":") then
    let type ← typeAnnotation g
    report .constructorResult type.place
  let nodes := params.map (·.1)
  let code ← functionBody g false false nodes key.place
  -- without a body it is a signature, and a signature neither declares nor defaults
  if code.form = .absent then
    for (n, isField) in params do
      if isField then report .parameterField n.place
    for n in nodes do
      if n.form = .defaultPat then report .defaultWithoutBody n.place
  match m.staticAt with
  | some p => report (.constructorModifier "static") p
  | none => pure ()
  match m.lastAt with
  | some p => if m.isAbstract then report .misplacedAbstract p
  | none => pure ()
  return ⟨.maker, m.place, [.list nodes, code]⟩

/-- The initializer of a class, from its brace on. -/
def initializer (g : Rules) (m : Modifiers) : Reading Node := do
  let code ← inScope (fun s => { s with inInitializer := true, inField := true }) (body g)
  return ⟨.initializer, m.place, [code]⟩

/-- A member that waits, behind the word that says so. -/
def asyncMember (g : Rules) (m : Modifiers) : Reading Node := do
  let overrides ← eatModifier ["override"]
  if overrides.isSome then report (.modifierOrder "override" "async") (← lastPlace)
  let isGenerator ← eat "*"
  let key ← classKey g
  if key.isMakerKey then fail
  if m.readonlyAt.isSome then report .readonlyMethod m.place
  if ← hasTypes then discard (eat "?")
  methodRest g m key true isGenerator (formalParameters g)

/-- A getter or a setter behind the word that says so, which stands at the given place. -/
def accessorMember (g : Rules) (m : Modifiers) (reads : Bool) (place : Place) : Reading Node := do
  let key ← classKey g
  if m.readonlyAt.isSome then report .readonlyAccessor place
  if key.isMakerKey then report .constructorAccessor place
  methodRest g m key false false
    (if reads then getterParameters g place else setterParameters g place)

/-- Reports a word that does not belong in front of the initializer of a class, if it has a
place. -/
def reportMisplaced (place : Option Place) : Reading Unit := do
  match place with
  | some p => report .misplacedModifier p
  | none => pure ()

/-- The initializer of a class, if one stands behind the words that have been read. Which of these
are faults depends on whether the last of them is the one that introduces it. -/
def initializer? (g : Rules) (m : Modifiers) : Reading (Option Node) := do
  if m.isStatic ∧ (← at? "\x7b") then
    reportMisplaced m.declareAt
    if m.access.isSome then report .misplacedModifier (← here)
    return some (← initializer g m)
  if (← atWord? "static") ∧ (← second).kind = .punct "\x7b" then
    reportMisplaced m.lastAt
    reportMisplaced m.staticAt
    discard pass
    return some (← initializer g m)
  return none

/-- A member whose modifiers have been read. -/
def memberRest (g : Rules) (m : Modifiers) : Reading Node := do
  match ← initializer? g m with
  | some n => return n
  | none => pure ()
  if (← hasTypes) ∧ !m.isAbstract ∧ !m.isOverride ∧ m.access.isNone then
    if ← atIndexSignature then
      let n ← indexSignature g
      memberEnd
      return ⟨.index, m.place, n.parts⟩
  if ← eat "*" then
    let key ← classKey g
    if m.readonlyAt.isSome then report .readonlyMethod m.place
    if key.isMakerKey then report .constructorGenerator m.place
    return ← methodRest g m key false true (formalParameters g)
  let key ← classKey g
  let isOptional ← if ← hasTypes then eat "?" else pure false
  if ← atMethod then
    match m.declareAt with
    | some p => report .misplacedDeclare p
    | none => pure ()
    if m.readonlyAt.isSome then fail
    if key.isMakerKey then return ← constructorRest g m key
    return ← methodRest g m key false false (formalParameters g)
  let t ← peek
  -- a star on the next line starts another member
  let yieldsNext := t.newline && t.kind == .punct "*"
  let accesses := (key.form == .word "get" || key.form == .word "set") && !yieldsNext
    && !(← atField false)
  if accesses then return ← accessorMember g m (key.form == .word "get") key.place
  if ← atField true then return ← fieldRest g m key isOptional
  if key.form = .word "async" ∧ !t.newline then return ← asyncMember g m
  fail

/-- A member with the key of a word that could have said what kind of member it is. The last
arguments say whether a line break ends it, and whether it may be marked as optional. -/
def memberNamed? (g : Rules) (m : Modifiers) (key : Node) (mayBreak mayBeOptional : Bool) :
    Reading (Option Node) := do
  if ← atMethod then return some (← methodRest g m key false false (formalParameters g))
  let isOptional ← if (← hasTypes) ∧ mayBeOptional then eat "?" else pure false
  if isOptional ∨ (← atField mayBreak) then return some (← fieldRest g m key isOptional)
  return none

/-- Passes a word, if it stands next, and gives its place. -/
def wordAt? (word : String) : Reading (Option Place) := do
  if ← eatWord word then return some (← lastPlace) else return none

/-- Whether a member that is said to be abstract has to belong to an abstract class: a field or a
method with a public name. -/
def Node.isPublicMember (n : Node) : Bool :=
  match n with
  | ⟨.field, _, key :: _⟩ | ⟨.method, _, key :: _⟩ => !key.isHidden
  | _ => false

/-- A member of a class behind the words that say that it exists elsewhere and who may access it,
and whether it has to belong to an abstract class. -/
def classMemberRest (g : Rules) (m : Modifiers) : Reading (Node × Bool) := do
  let typed ← hasTypes
  let staticAt ← wordAt? "static"
  let accessorAt ← if typed then wordAt? "accessor" else pure none
  let key (word : String) (p : Place) : Node := .leaf (.word word) p
  match staticAt with
  | some p =>
    -- `static` may be the name of the member
    let marked := { m with isAccessor := accessorAt.isSome }
    match ← memberNamed? g marked (key "static" p) false true with
    | some n => return (n, false)
    | none => pure ()
  | none => pure ()
  let m := { m with isStatic := staticAt.isSome, staticAt := staticAt }
  match accessorAt with
  | some p =>
    match ← memberNamed? g m (key "accessor" p) true true with
    | some n => return (n, false)
    | none => pure ()
  | none => pure ()
  let m ← typedModifiers m
  -- the word may also stand behind the other modifiers
  let mayBeAccessor := typed && accessorAt.isNone && m.readonlyAt.isNone
    && (← second).kind ≠ .punct "("
  let eaten ← if mayBeAccessor then eatWord "accessor" else pure false
  let n ← memberRest g { m with isAccessor := accessorAt.isSome || eaten }
  return (n, m.isAbstract && n.isPublicMember)

/-- A member of a class, and whether it has to belong to an abstract class. -/
def classMember (g : Rules) : Reading (Node × Bool) := do
  let place ← here
  let typed ← hasTypes
  let declareFirst ← if typed then wordAt? "declare" else pure none
  let access ← eatAccess
  let declareAt ←
    if typed ∧ declareFirst.isNone then wordAt? "declare" else pure declareFirst
  let m : Modifiers := { place := place, access := access }
  match declareAt with
  | some p =>
    match ← memberNamed? g m (.leaf (.word "declare") p) true false with
    | some n => return (n, false)
    | none => pure ()
  | none => pure ()
  classMemberRest g { m with declareAt := declareAt }

/-! ### Classes -/

/-- A parent of an interface or an interface of a class. -/
def heritage (g : Rules) : Reading Node := do
  let (place, text) ← anyWord
  let e ← iterate (Node.leaf (.name text) place) fun e => do
    if ← eat "." then
      let (p, text) ← anyWord
      return .more ⟨.member, place, [e, .leaf (.word text) p]⟩
    let p ← here
    if ← eat "[" then
      let key ← bracketed (g ()).expression
      expect "]"
      return .more ⟨.member, place, [e, ⟨.computed, p, [key]⟩]⟩
    return .done e
  return ⟨.heritage, place, [e, ← typeArguments? g]⟩

/-- Parents or interfaces separated by commas, up to the opening brace or the next list. The list
may be empty, and a comma may stand behind it. -/
def heritages (g : Rules) : Reading Node := do
  let atListEnd : Reading Bool :=
    return (← at? "\x7b") || (← atWord? "extends") || (← atWord? "implements")
  let nodes ← iterate [] fun acc => do
    if ← atListEnd then return .done acc.reverse
    let n ← heritage g
    if ← eat "," then return .more (n :: acc)
    unless ← atListEnd do failAt ","
    return .done (n :: acc).reverse
  return .list nodes

/-- The members of a class in braces, and the places of those that are abstract. A second
constructor is a fault. -/
def classMembers (g : Rules) : Reading (Node × List Place) := do
  expect "\x7b"
  let (members, abstracts) ← inScope (fun s => { s with allowsSuper := true }) <|
    iterate ([], [], false) fun (acc, abstracts, made) => do
      if (← at? "\x7d") ∨ (← atEnd?) then return .done (acc.reverse, abstracts.reverse)
      if ← eat ";" then return .more (acc, abstracts, made)
      let (n, isAbstract) ← classMember g
      let abstracts := if isAbstract then n.place :: abstracts else abstracts
      match n with
      | ⟨.maker, place, [_, code]⟩ =>
        -- a signature of the constructor may be repeated, its body may not
        if code.form = .absent ∨ (← scope).ambient then return .more (n :: acc, abstracts, made)
        if made then report .duplicateConstructor place
        return .more (n :: acc, abstracts, true)
      | _ => return .more (n :: acc, abstracts, made)
  if ← atEnd? then report (.missingToken "\x7d" "<eof>") (← spot) else expect "\x7d"
  return (.list members, abstracts)

/-- The parent of a class and its type arguments. -/
def parentClass (g : Rules) : Reading (Node × Node) := do
  match ← (g ()).access with
  -- A parent read together with its type arguments is taken apart again.
  | ⟨.instantiate, _, [e, types]⟩ => return (e, types)
  | parent => return (parent, ← if ← hasTypes then typeArguments? g else pure (.list []))

/-- What stands between the name of a class and its members: the parent with its type arguments, and
the interfaces. Each may be given once, and the parent comes first. -/
def classHeritage (g : Rules) : Reading (Node × Node × Node) := do
  let typed ← hasTypes
  let (parent, args) ←
    if ← eatWord "extends" then do
      let found ← parentClass g
      if typed then
        if ← eat "," then
          for n in (← heritages g).parts do report .severalParents n.place
      pure found
    else pure (Node.absent, Node.list [])
  -- a repeated clause is reported, read and dropped
  if ← eatWord "extends" then
    report .repeatedExtends (← lastPlace)
    discard (parentClass g)
  if !typed then return (parent, args, .list [])
  let interfaces ← if ← eatWord "implements" then heritages g else pure (.list [])
  if ← eatWord "implements" then
    report .repeatedImplements (← lastPlace)
    discard (heritages g)
  if ← eatWord "extends" then
    report .lateExtends (← lastPlace)
    let (late, lateArgs) ← parentClass g
    -- a parent that comes late is taken if there is no other
    if parent.form = .absent then return (late, lateArgs, interfaces)
  return (parent, args, interfaces)

/-- A class behind its name. -/
def classRest (g : Rules) (isAbstract : Bool) (name : Node) : Reading Node := do
  let place ← here
  match name.form with
  | .binder text =>
    if (← hasTypes) ∧ isTypeKeyword text then report .reservedClassName name.place
  | _ => pure ()
  inScope (fun s => { s with inClass := true }) do
    let generic ← typeParameters? g .classes
    let (parent, args, interfaces) ← classHeritage g
    let (members, abstracts) ←
      inScope (fun s => { s with hasParent := parent.form ≠ .absent }) (classMembers g)
    unless isAbstract do
      for p in abstracts do report .strayAbstract p
    return ⟨.cls, place, [members, parent, generic, args, interfaces]⟩

/-- A class as an expression. -/
def classExpression (g : Rules) : Reading Node := do
  let place ← here
  expectWord "class"
  let name ← binder?
  return ⟨.classExpr, place, [name, ← classRest g false name]⟩

/-- A class as a declaration. -/
def classDeclaration (g : Rules) : Reading Node := do
  let place ← here
  let isAbstract ← if ← hasTypes then eatWord "abstract" else pure false
  expectWord "class"
  if ← atWord? "let" then fail
  let name ← binder
  return ⟨.classDecl, place, [name, ← classRest g isAbstract name]⟩

end JsxWidgets.Syntax
