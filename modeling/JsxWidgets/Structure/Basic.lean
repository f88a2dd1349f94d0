import JsxWidgets.Component
import JsxWidgets.Diagnostic
import JsxWidgets.Syntax.Location

/-!
# The structure of a component file

The records of the census of a file: what it imports and exports, which elements, attributes and
hooks it uses, and how complex it is.
-/

namespace JsxWidgets

/-- Where an imported module lies. -/
inductive ImportKind where
  | relative | frameworkBuiltin | external
  deriving DecidableEq, Repr, Inhabited

/-- A name brought in by an import. -/
structure NamedBinding where
  /-- The name in the other module. -/
  imported : String
  /-- The name in this file. -/
  name : String
  deriving DecidableEq, Repr, Inhabited

/-- An import. -/
structure ImportRecord where
  /-- The module. -/
  source : String
  /-- Where it lies. -/
  kind : ImportKind
  /-- The name of its default export. -/
  defaultBinding : Option String
  /-- The names of single exports. -/
  named : List NamedBinding
  /-- The name of all its exports. -/
  wholeName : Option String
  /-- Whether only types are imported. -/
  typeOnly : Bool
  deriving DecidableEq, Repr, Inhabited

/-- Kinds of exports. -/
inductive ExportKind where
  | named | main | passedOn | all
  deriving DecidableEq, Repr, Inhabited

/-- An export. -/
structure ExportRecord where
  /-- The name for other modules. -/
  exported : String
  /-- The name in this file. -/
  name : Option String
  /-- The module that it comes from. -/
  source : Option String
  /-- The kind. -/
  kind : ExportKind
  deriving DecidableEq, Repr, Inhabited

/-- An attribute as it was met. -/
structure PropObservation where
  /-- The innermost element whose opening tag holds it. -/
  element : String
  /-- The name. -/
  name : String
  /-- The kind of the value. -/
  kind : Expression.Kind
  deriving DecidableEq, Repr, Inhabited

/-- How complex a file is. -/
inductive Complexity where
  | simple | moderate | complex
  deriving DecidableEq, Repr, Inhabited

/-- The complexity of a file with the given numbers of elements, of nested elements, of attributes
and of calls of hooks. -/
def Complexity.classify (elements depth attributes hooks : Nat) : Complexity :=
  if elements > 20 || depth > 5 || attributes > 15 || hooks > 3 then .complex
  else if elements > 10 || depth > 3 || attributes > 8 || hooks > 1 then .moderate
  else .simple

/-- The structure of a file. -/
structure ComponentStructure where
  /-- The path of the file. -/
  filePath : String
  /-- The name of its component. -/
  componentName : Option String
  /-- How the component is written. -/
  componentKind : ComponentKind
  /-- Whether the file is a page. -/
  isPage : Bool
  /-- Whether the component is the default export. -/
  isDefaultExport : Bool
  /-- The imports. -/
  imports : List ImportRecord
  /-- The exports. -/
  exports : List ExportRecord
  /-- How often each tag occurs. -/
  elements : List (String × Nat)
  /-- How often each attribute occurs. -/
  attributes : List (String × Nat)
  /-- The attributes in order. -/
  observations : List PropObservation
  /-- The class names. -/
  classNames : List String
  /-- The first pieces of text. -/
  textSamples : List String
  /-- The tags that name components. -/
  customComponents : List String
  /-- How often each other tag occurs. -/
  htmlElements : List (String × Nat)
  /-- The hooks in the order of their calls. -/
  hooks : List String
  /-- The attributes that hold event handlers. -/
  eventHandlers : List String
  /-- The number of elements. -/
  totalElements : Nat
  /-- The length of the longest chain of nested elements. -/
  maxDepth : Nat
  /-- The complexity. -/
  complexity : Complexity
  /-- What was unclear. -/
  diagnostics : List (Diagnostic Syntax.Location)
  deriving Repr, Inhabited

/-- The number of attributes. -/
def ComponentStructure.totalProps (s : ComponentStructure) : Nat := s.observations.length

end JsxWidgets
