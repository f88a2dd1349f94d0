import JsxWidgets.Dart.WidgetFile
import JsxWidgets.Structure
import JsxWidgets.Syntax.Grammar

/-!
# From a component file to a widget file

The whole way: a text is read as a module, its structure and its behaviour are analysed, the markup
becomes a widget tree, and the tree becomes code. Only reading can fail. What any other step cannot
make sense of is a diagnostic.
-/

namespace JsxWidgets

open Syntax

/-! ### Reading a file -/

/-- A file that has been read. -/
structure SourceFile where
  /-- The path. -/
  path : String
  /-- The characters of the text. -/
  chars : List Char
  /-- The module. -/
  module : Module
  /-- The faults of the text. -/
  faults : List Fault

namespace SourceFile

/-- Reads the text of a file, if it is readable. The end of the path tells the language. -/
def read? (path text : String) : Option SourceFile :=
  let chars := withoutMark text
  (Module.read? (Dialect.ofPath path) chars).map fun (m, faults) => ⟨path, chars, m, faults⟩

/-- Why a file cannot be read. -/
def unreadable (path : String) : String := "failed to parse " ++ path

/-- Tells the places of a file. -/
def locate (f : SourceFile) : Locator := Location.ofPlace f.chars

/-- The report on a fault. -/
def faultDiagnostic (locate : Locator) (fault : Fault) : Diagnostic Location :=
  ⟨.malformedInput, "recovered from syntax error: " ++ fault.kind.code, some (locate fault.place)⟩

/-- The reports on the faults of a file. -/
def diagnostics (f : SourceFile) : List (Diagnostic Location) :=
  f.faults.map (faultDiagnostic f.locate)

end SourceFile

/-! ### The whole way -/

/-- Everything that is found out and written for a file. -/
structure Transformation where
  /-- The structure. -/
  structureFacts : ComponentStructure
  /-- The behaviour. -/
  state : StateAnalysis Location
  /-- The components and those inside them. -/
  compositionTree : CompositionTree
  /-- The widget tree. -/
  widgetTree : LoweredTree
  /-- The tree as an expression. -/
  code : String
  /-- The tree as a file. -/
  componentSource : String
  /-- What no step could make sense of, step by step. -/
  diagnostics : List (Diagnostic Location)
  deriving Inhabited

/-- What is found out and written for a file that has been read. -/
def SourceFile.transform (f : SourceFile) (config : Config) : Transformation :=
  let s := analyzeStructure f.module f.path config
  let state := analyzeState f.module f.locate
  let tree := lowerToWidgetTree f.module s.componentName config
  { structureFacts := s
    state := state
    compositionTree := .ofRecords state.composition
    widgetTree := tree
    code := Dart.emit tree.root
    componentSource := (Dart.WidgetFile.ofAnalyses s state tree config).code
    diagnostics := f.diagnostics ++ s.diagnostics ++ state.diagnostics ++ tree.diagnostics }

/-- **From the text of a file to everything that is written for it**, if the text is readable. -/
def transform? (path text : String) (config : Config) : Option Transformation :=
  (SourceFile.read? path text).map (·.transform config)

end JsxWidgets
