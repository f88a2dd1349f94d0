import JsxWidgets.Syntax.Grammar.Statements

/-!
# The grammar of modules

An item of a module is an import, an export, or a statement. An import that goes on with a
parenthesis or a point is an expression and hence a statement.

## The word `type` in a list

In a list of names the word `type` restricts the name behind it to its type, but it is a name too,
and so is the word `as` that gives a second name. Up to four words in a row are told apart by their
number: of `type as`, `type as x`, `type as as` and `type as as x` the first and the last are about
the type of `as`, the others give the name `type` a second name.
-/

namespace JsxWidgets.Syntax

open Reading

/-- A text, which has to stand next. -/
def expectString : Reading String := do
  match (← peek).kind with
  | .string v =>
    discard pass
    return v
  | _ => fail

/-- The attributes of a module behind its name, where types may be stated. They are the properties
of an object, with any values. -/
def moduleAttributes (g : Rules) : Reading Node := do
  let t ← peek
  if (← hasTypes) ∧ !t.newline ∧ (t.kind = .word "with" ∨ t.kind = .word "assert") then
    discard pass
    let place ← here
    expect "\x7b"
    return .list (← bracketed (objectProperties g place))
  return .list []

/-- The module behind the word `from` and its attributes, up to the end of the item. -/
def fromClause (g : Rules) : Reading (String × Node) := do
  expectWord "from"
  let source ← expectString
  let attributes ← moduleAttributes g
  expectEnd
  return (source, attributes)

/-- Entries of a list in braces, separated by commas. -/
def entries {α : Type} (p : Reading α) : Reading (List α) := do
  expect "\x7b"
  commaList "\x7d" p

/-! ### Names in lists -/

/-- The name of something exported, which may be any word or a text. -/
structure ListedName where
  /-- Where the name stands. -/
  place : Place
  /-- The name. -/
  text : String
  /-- Whether it is a text in quotes. -/
  isQuoted : Bool

/-- The name of something exported. -/
def listedName : Reading ListedName := do
  let t ← peek
  match t.kind with
  | .word text =>
    discard pass
    return ⟨t.place, text, false⟩
  | .string text =>
    discard pass
    return ⟨t.place, text, true⟩
  | _ => fail

/-- An entry of a list: its name, and the second name if one is given. The arguments are the reading
of a second name, and the fault of a name that is restricted to its type where all are. -/
def listEntry (second : Reading String) (repeatedMark : Option FaultKind) :
    Reading (ListedName × Option String) := do
  let first ← listedName
  let plain (name : ListedName) : Reading (ListedName × Option String) := do
    if ← eatWord "as" then return (name, some (← second)) else return (name, none)
  let isMark := (← hasTypes) && !first.isQuoted && first.text == "type" && (← peek).kind.isWord
  if !isMark then return ← plain first
  let mark : Reading Unit :=
    match repeatedMark with
    | some fault => report fault first.place
    | none => pure ()
  let name ← listedName
  -- `type as`: the mark or a name, told apart by what follows
  if name.text ≠ "as" then
    mark
    return ← plain name
  if !(← peek).kind.isWord then
    mark
    return (name, none)
  let next ← second
  if next = "as" ∧ (← peek).kind.isWord then
    let last ← second
    mark
    return (name, some last)
  return (first, some next)

/-! ### Imports -/

/-- The name of an import, which is bound. -/
def importedName : Reading String := do
  let (_, name) ←
    inScope (fun s => { s with inAsync := false, inGenerator := false }) bindingIdentifier
  return name

/-- A name in the list of an import. A text needs a second name, and a word of the language should
have one. -/
def importEntry (typeOnly : Bool) : Reading ImportBinding := do
  let (name, renamed) ←
    listEntry importedName (if typeOnly then some .repeatedImportMark else none)
  match renamed with
  | some n => return .named n (some name.text)
  | none =>
    if name.isQuoted then fail
    if isReservedName name.text then report .reservedImport name.place
    return .named name.text none

/-- All exports under one name. -/
def importWhole : Reading ImportBinding := do
  expect "*"
  expectWord "as"
  return .whole (← importedName)

/-- A name given to another module or to an entity, from the equality sign on. -/
def importAliasRest (place : Place) (name : Node) : Reading Node := do
  expect "="
  if (← atWord? "require") ∧ (← second).kind = .punct "(" then
    discard pass
    discard pass
    discard expectString
    expect ")"
    expectEnd
    return ⟨.importAlias, place, [name, .absent]⟩
  let entity ← entityName
  expectEnd
  return ⟨.importAlias, place, [name, entity]⟩

/-- When an imported module is run, which a word in front of its name says. -/
inductive ImportPhase where
  /-- With the module that imports it. -/
  | evaluation
  /-- When it is first used. -/
  | deferred
  /-- Not at all. -/
  | source
  deriving DecidableEq

/-- Whether a word in front of an import is followed by what it marks, which is another name. -/
def marksName : Reading Bool := do
  if !(← peek).kind.isReference then return false
  if !(← atWord? "from") then return true
  return (← second).kind == .word "from"

/-- What stands in front of a list of imports. -/
structure ImportHead where
  /-- The local name of the default export, if there is one, and its place. -/
  name : Option (Place × String) := none
  /-- Whether only types are imported. -/
  typeOnly : Bool := false
  /-- When the module is run. -/
  phase : ImportPhase := .evaluation

/-- A default import and the words in front of it that say what is imported. -/
def importHead : Reading ImportHead := do
  if !(← peek).kind.isReference then return {}
  let opensList : Reading Bool := return (← peek).kind.isPunctOf ["*", "\x7b"]
  let place ← here
  let first ← importedName
  let mut head : ImportHead := { name := some (place, first) }
  if (← hasTypes) ∧ first = "type" then
    if ← opensList then return { typeOnly := true }
    -- `type` is the mark if a name follows, and the binding if not
    let isName ← marksName
    if isName || ((← peek).kind.isReference && (← second).kind == .punct "=") then
      let place ← here
      let name ← importedName
      head := { name := some (place, name), typeOnly := true }
  if (← hasTypes) ∧ (← at? "=") then return head
  let phase? : Option ImportPhase :=
    match head.name with
    | some (_, "source") => some .source
    | some (_, "defer") => some .deferred
    | _ => none
  match phase? with
  | none => return head
  | some phase =>
    if ← opensList then return { head with name := none, phase := phase }
    if ← marksName then
      let place ← here
      let name ← importedName
      return { head with name := some (place, name), phase := phase }
    return head

/-- What an import brings in as a whole or by name; nothing if neither stands here. -/
def importGroup (head : ImportHead) : Reading (List ImportBinding) := do
  if (← at? "*") ∧ head.phase ≠ .source then return [← importWhole]
  if (← at? "\x7b") ∧ head.phase = .evaluation then return ← entries (importEntry head.typeOnly)
  return []

/-- An import. -/
def importItem (g : Rules) : Reading Node := do
  let place ← here
  expectWord "import"
  match (← peek).kind with
  | .string source =>
    discard pass
    let attributes ← moduleAttributes g
    discard eatEnd
    return ⟨.importFrom false [] source, place, [attributes]⟩
  | _ =>
    let head ← importHead
    let main ←
      match head.name with
      | none => pure []
      | some (p, name) =>
        -- `import a = b.c` gives another name to an entity and reads no module
        if (← hasTypes) ∧ (← at? "=") then
          return ← importAliasRest place (.leaf (.binder name) p)
        unless ← atWord? "from" do expect ","
        pure [ImportBinding.main name]
    let group ← importGroup head
    let (source, attributes) ← fromClause g
    return ⟨.importFrom head.typeOnly (main ++ group) source, place, [attributes]⟩

/-! ### Exports -/

/-- A name in the list of an export, as it stands there and as an export. -/
def exportEntry (typeOnly : Bool) : Reading (ListedName × ExportBinding) := do
  let second : Reading String := return (← listedName).text
  let (name, renamed) ← listEntry second (if typeOnly then some .repeatedExportMark else none)
  return (name, .named name.text renamed)

/-- Whether a word cannot name a variable that is exported. -/
def isReservedExport (word : String) : Bool :=
  reservedWords.contains word || ["enum", "package"].contains word

/-- A list of exports, or all exports of another module, behind the word `export`. -/
def exportListRest (g : Rules) (place : Place) (typeOnly : Bool) : Reading Node := do
  if ← eat "*" then
    if ← eatWord "as" then
      let name ← listedName
      let (source, attributes) ← fromClause g
      return ⟨.exportList [.whole name.text] (some source), place, [attributes]⟩
    let (source, attributes) ← fromClause g
    return ⟨.exportAll source, place, [attributes]⟩
  let found ← entries (exportEntry typeOnly)
  let bindings := found.map (·.2)
  if ← atWord? "from" then
    let (source, attributes) ← fromClause g
    return ⟨.exportList bindings (some source), place, [attributes]⟩
  -- What is exported here is a variable.
  for (name, _) in found do
    if name.isQuoted then report .quotedExport name.place
    else if isReservedExport name.text then report (.reservedExport name.text) name.place
  discard eatEnd
  return ⟨.exportList bindings none, place, [.list []]⟩

/-- The default export behind its two words. -/
def exportDefaultRest (g : Rules) (place : Place) : Reading Node := do
  let typed ← hasTypes
  let next ← second
  let isMarked := typed && (← atWord? "abstract")
  let isAbstract := isMarked && next.kind == .word "class" && !next.newline
  if isAbstract then discard pass
  -- an abstract interface is reported and read as an interface
  if isMarked ∧ next.kind = .word "interface" then
    report .misplacedAbstract (← spot)
    discard pass
  if typed ∧ (← atWord? "interface") then
    return ⟨.exportInterface, place, [← interfaceDeclaration g]⟩
  if ← eatWord "class" then
    let name ← binder?
    return ⟨.exportClass, place, [name, ← classRest g isAbstract name]⟩
  if ← atFunction then
    let (isAsync, isGenerator) ← functionHead
    let name ← binder?
    let fn ← outsideMembers (functionRest g isAsync isGenerator (formalParameters g) name.place)
    return ⟨.exportFn, place, [name, fn]⟩
  let e ← withIn (g ()).assignment
  expectEnd
  return ⟨.exportExpr, place, [e]⟩

/-- An exported declaration that only files with types have, behind the word `export`. Apart from
those of things that exist elsewhere, these are read without their faults. -/
def typedExport? (g : Rules) (place : Place) : Reading (Option Node) := do
  if !(← hasTypes) then return none
  if ← eatWord "declare" then
    match ← ambientDeclaration? g with
    | some n => return some ⟨.exportDecl, place, [n]⟩
    | none => pure ()
  let isConstant ← atWord? "const"
  if isConstant then
    if (← second).kind = .word "enum" then
      return some ⟨.exportDecl, place, [← enumDeclaration g]⟩
    return none
  -- the declaration is tried, for its first word may be a name
  if !(← atWord? "global") then
    match ← attempt (silently (typedDeclaration? g true)) with
    | some (some n) => return some ⟨.exportDecl, place, [n]⟩
    | _ => pure ()
  if ← eatWord "import" then
    if (← atWord? "type") ∧ (← second).kind.isWord then discard pass
    let name ← anyBinder
    return some (← importAliasRest place name)
  if ← eat "=" then
    let e ← (g ()).expression
    expectEnd
    return some ⟨.exportAssign, place, [e]⟩
  if ← eatWord "as" then
    expectWord "namespace"
    discard identifier
    expectEnd
    return some (.leaf .exportSpace place)
  return none

/-- An export. -/
def exportItem (g : Rules) : Reading Node := do
  let place ← here
  expectWord "export"
  match ← typedExport? g place with
  | some n => return n
  | none =>
    let typeOnly ← if ← hasTypes then eatWord "type" else pure false
    if typeOnly then return ← exportListRest g place true
    if ← eatWord "default" then return ← exportDefaultRest g place
    if ← atWord? "class" then return ⟨.exportDecl, place, [← classDeclaration g]⟩
    if ← atFunction then return ⟨.exportDecl, place, [← functionDeclaration g]⟩
    if ← declaresVariables then return ⟨.exportDecl, place, [← variableDeclaration g]⟩
    exportListRest g place false

/-- An item of a module. -/
def moduleItemRule (g : Rules) : Reading Node := do
  if (← atWord? "import") ∧ !(← second).kind.isPunctOf ["(", "."] then importItem g
  else if ← atWord? "export" then exportItem g
  else (g ()).statement true

end JsxWidgets.Syntax
