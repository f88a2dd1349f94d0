import JsxWidgets.Config.Basic
import JsxWidgets.Naming
import JsxWidgets.Structure.Basic
import JsxWidgets.Syntax.Markup
import JsxWidgets.Syntax.Survey
import JsxWidgets.Text.Order

/-!
# The census

One walk through a module writes down facts in order: imports, exports, calls of hooks, elements
with their depth, attributes with their owner, class names and texts. All numbers and sets of the
structure are counted from this list.
-/

namespace JsxWidgets.Census

open Syntax

/-- A fact about a module. -/
inductive Fact where
  /-- Something is imported. -/
  | imported (record : ImportRecord)
  /-- Something is exported. -/
  | exported (record : ExportRecord)
  /-- A hook is called. -/
  | hook (name : String)
  /-- There is an element; the depth counts the elements around it and itself. -/
  | element (tag : TagName) (depth : Nat)
  /-- There is an attribute. -/
  | attribute (observation : PropObservation)
  /-- A class name is used. -/
  | className (token : String)
  /-- There is a text. -/
  | sample (text : String)

/-! ### Imports and exports -/

/-- Where a module lies. -/
def importKind (config : Config) (source : String) : ImportKind :=
  if Text.startsWith "." source || Text.startsWith "/" source then .relative
  else if config.isFrameworkSource source then .frameworkBuiltin
  else .external

/-- The record of an import. -/
def importRecord (config : Config) (typeOnly : Bool) (bindings : List ImportBinding)
    (source : String) : ImportRecord :=
  { source := source
    kind := importKind config source
    defaultBinding := (bindings.filterMap fun b =>
      match b with
      | .main n => some n
      -- of several main bindings the last one is kept
      | _ => none).getLast?
    named := bindings.filterMap fun b =>
      match b with
      | .named n imported => some ⟨imported.getD n, n⟩
      | _ => none
    wholeName := (bindings.filterMap fun b =>
      match b with
      | .whole n => some n
      | _ => none).getLast?
    typeOnly := typeOnly }

/-- The record of a declaration that is exported under its own name. -/
def namedExport (name : String) : ExportRecord := ⟨name, some name, none, .named⟩

/-- The names that an exported declaration exports. -/
def declaredNames (declaration : Node) : List String :=
  match declaration with
  | ⟨.varDecl _, _, declarators⟩ =>
    declarators.filterMap fun d =>
      match d with
      | ⟨.declarator, _, ⟨.bind n, _, _⟩ :: _⟩ => some n
      | _ => none
  | ⟨.fnDecl, _, name :: _⟩ => (binderName? name).toList
  | ⟨.classDecl, _, name :: _⟩ => (binderName? name).toList
  | ⟨.interface, _, name :: _⟩ => (binderName? name).toList
  | ⟨.typeName, _, name :: _⟩ => (binderName? name).toList
  | _ => []

/-- The record of an entry of an export list. -/
def listExport (source : Option String) (binding : ExportBinding) : ExportRecord :=
  match binding with
  | .whole n => ⟨n, none, source, .passedOn⟩
  | .named name renamed =>
    let exported := renamed.getD name
    let kind :=
      if source.isSome then .passedOn else if exported = "default" then .main else .named
    ⟨exported, some name, source, kind⟩

/-- The record of a default export that has a name in this file. -/
def mainExport (name : Option String) : ExportRecord := ⟨"default", name, none, .main⟩

/-- The name that a default export of a value stands for; a call that wraps a name still names
it. -/
def exportedName? (e : Node) : Option String :=
  let nameOf (e : Node) : Option String :=
    match e.unwrap.form with
    | .name t => some t
    | _ => none
  match e.unwrap.form with
  | .call => (Expression.argument? e.unwrap 0).bind nameOf
  | _ => nameOf e

/-- The records of the exports that a node makes. -/
def exportRecords (n : Node) : List ExportRecord :=
  match n with
  | ⟨.exportDecl, _, [d]⟩ => (declaredNames d).map namedExport
  | ⟨.exportList bindings source, _, _⟩ => bindings.map (listExport source)
  | ⟨.exportAll source, _, _⟩ => [⟨"*", none, some source, .all⟩]
  | ⟨.exportFn, _, name :: _⟩ => [mainExport (binderName? name)]
  | ⟨.exportClass, _, name :: _⟩ => [mainExport (binderName? name)]
  | ⟨.exportInterface, _, [⟨.interface, _, name :: _⟩]⟩ => [mainExport (binderName? name)]
  | ⟨.exportExpr, _, [e]⟩ => [mainExport (exportedName? e)]
  | _ => []

/-! ### The walk -/

/-- What surrounds a node: how many elements, and the tag of the innermost one. -/
structure Surroundings where
  /-- The number of elements around. -/
  depth : Nat
  /-- The innermost of them. -/
  owner : String

/-- The facts at an attribute. -/
def attributeFacts (owner : String) (name : String) (value : AttributeValue) : List Fact :=
  (if isClassAttribute name then value.classTokens.map .className else [])
    ++ [.attribute ⟨owner, name, value.kind⟩]

/-- The facts at a node. -/
def facts (config : Config) (around : Surroundings) (n : Node) : List Fact :=
  match n.form with
  | .importFrom typeOnly bindings source =>
    [.imported (importRecord config typeOnly bindings source)]
  | .call =>
    match Expression.calleeName? n with
    | some name => if Naming.isHook name then [.hook name] else []
    | none => []
  | .element =>
    match n.tag? with
    | some tag => [.element tag (around.depth + 1)]
    | none => []
  | .attr name => attributeFacts around.owner name.text n.attributeValue
  | .text value =>
    -- a text that is blank throughout is no sample
    let sample := Text.normalize value
    if sample.isEmpty then [] else [.sample sample]
  | _ => (exportRecords n).map .exported

/-- What surrounds the parts of a node. -/
def Surroundings.inside (around : Surroundings) (n : Node) : Surroundings :=
  match n.tag? with
  | some tag => ⟨around.depth + 1, tag.text⟩
  | none => around

/-- Whether a construct names another module or a list of names only. The census does not look into
its parts, the attributes of the module. -/
def isListing : Form → Bool
  | .importFrom .. | .exportList .. | .exportAll _ => true
  | _ => false

/-- The walk. -/
def survey (config : Config) : Survey Surroundings Fact where
  note := facts config
  enter around whole _ := if isListing whole.form then none else some (around.inside whole)

/-- The facts about a module. -/
def ofModule (config : Config) (m : Module) : List Fact := (survey config).runAll ⟨0, ""⟩ m

/-! ### What is counted -/

/-- The imports. -/
def imports (fs : List Fact) : List ImportRecord :=
  fs.filterMap fun f =>
    match f with
    | .imported r => some r
    | _ => none

/-- The exports. -/
def exports (fs : List Fact) : List ExportRecord :=
  fs.filterMap fun f =>
    match f with
    | .exported r => some r
    | _ => none

/-- The calls of hooks. -/
def hooks (fs : List Fact) : List String :=
  fs.filterMap fun f =>
    match f with
    | .hook n => some n
    | _ => none

/-- The tags of the elements. -/
def tags (fs : List Fact) : List TagName :=
  fs.filterMap fun f =>
    match f with
    | .element t _ => some t
    | _ => none

/-- The depths of the elements. -/
def depths (fs : List Fact) : List Nat :=
  fs.filterMap fun f =>
    match f with
    | .element _ d => some d
    | _ => none

/-- The attributes. -/
def observations (fs : List Fact) : List PropObservation :=
  fs.filterMap fun f =>
    match f with
    | .attribute o => some o
    | _ => none

/-- The class names. -/
def classTokens (fs : List Fact) : List String :=
  fs.filterMap fun f =>
    match f with
    | .className t => some t
    | _ => none

/-- The texts. -/
def samples (fs : List Fact) : List String :=
  fs.filterMap fun f =>
    match f with
    | .sample t => some t
    | _ => none

end JsxWidgets.Census
