import JsxWidgets.Structure.Census

/-!
# Analysis of the structure

`analyzeStructure` counts the facts of the census, and says which component the file is about and
whether that is clear.
-/

namespace JsxWidgets

open Syntax

/-- The first part of the name of a file, without folders and endings. -/
def fileStem (path : String) : String :=
  Text.firstSegment (· = '.') (Text.lastSegment (· = '/') path)

/-- Whether a file is a page, by its path or by the name of its component. -/
def isPage (path : String) (name : Option String) (config : Config) : Bool :=
  let path := String.ofList (path.toList.map fun c => if c = '\\' then '/' else c)
  (config.pageMarkers.any fun marker => Text.contains marker path)
    || fileStem path = "page"
    || name.any fun n => Text.endsWith "Page" n || Text.endsWith "Screen" n

/-- The names that the default exports of a module have in the file. -/
def defaultNames (records : List ExportRecord) : List String :=
  records.filterMap fun r => if r.kind = .main then r.name else none

/-- Whether an item exports a function without a name as the default. -/
def isNamelessDefault (item : Node) : Bool :=
  match item with
  | ⟨.exportFn, _, ⟨.absent, _, _⟩ :: _⟩ => true
  | _ => false

/-- Whether the component of a module is its default export. -/
def isDefaultExport (m : Module) (records : List ExportRecord) : Bool :=
  match m.component? with
  | none => false
  | some c => c.name.any (defaultNames records).contains || m.any isNamelessDefault

/-- What is unclear about the component of a module. -/
def componentDiagnostics (m : Module) : List (Diagnostic Location) :=
  -- only the candidates that have a name are counted
  let names := m.candidateNames
  let missing : List (Diagnostic Location) :=
    if m.component?.isSome then []
    else
      [⟨.structuralAmbiguity,
        "no component found: no JSX-returning function, arrow or component class", none⟩]
  let several : List (Diagnostic Location) :=
    if names.length > 1 then
      [⟨.structuralAmbiguity,
        toString names.length ++ " component candidates (" ++ ", ".intercalate names ++ "); using "
          ++ (m.component?.bind (·.name)).getD "<anonymous>", none⟩]
    else []
  missing ++ several

/-- **The structure of a file.** -/
def analyzeStructure (m : Module) (path : String) (config : Config) : ComponentStructure :=
  let facts := Census.ofModule config m
  let component := m.component?
  let name := component.bind (·.name)
  let tags := Census.tags facts
  let observations := Census.observations facts
  let hooks := Census.hooks facts
  let maxDepth := (Census.depths facts).foldl max 0
  { filePath := path
    componentName := name
    componentKind := (component.map (·.kind)).getD .unknown
    isPage := isPage path name config
    isDefaultExport := isDefaultExport m (Census.exports facts)
    imports := Census.imports facts
    exports := Census.exports facts
    elements := Text.tally (tags.map (·.text))
    attributes := Text.tally (observations.map (·.name))
    observations := observations
    classNames := Text.sortedSet (Census.classTokens facts)
    textSamples := (Census.samples facts).take config.textSampleLimit
    customComponents := Text.sortedSet ((tags.filter (·.isCustom)).map (·.text))
    htmlElements := Text.tally ((tags.filter (!·.isCustom)).map (·.text))
    hooks := hooks
    eventHandlers := Text.sortedSet ((observations.map (·.name)).filter Naming.isEventHandler)
    totalElements := tags.length
    maxDepth := maxDepth
    complexity := .classify tags.length maxDepth observations.length hooks.length
    diagnostics := componentDiagnostics m }

end JsxWidgets
