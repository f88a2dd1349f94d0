import JsxWidgets.Config.Basic
import JsxWidgets.Dart.Constant
import JsxWidgets.Dart.Emission
import JsxWidgets.Dart.TypeName
import JsxWidgets.Naming
import JsxWidgets.StateAnalysis
import JsxWidgets.Structure.Basic
import JsxWidgets.Widget.Lowering

/-!
# Files in Dart

A widget tree becomes a file: imports, a class for the widget with a parameter and a field for each
property, and a method that builds the tree. A component that keeps state gets a second class, which
holds the state and hands the properties on to the method as variables.

`WidgetFile.ofAnalyses` decides what the file holds, `WidgetFile.code` writes it down.
-/

namespace JsxWidgets.Dart

/-! ### Parts of a file -/

/-- A parameter of a constructor. -/
structure Parameter where
  /-- The name. -/
  name : String
  /-- Whether it has to be given. -/
  required : Bool
  /-- What it is if it is not given. -/
  fallback : Option Literal
  deriving Repr, Inhabited

/-- What is said about the initial value of a field. -/
inductive Initial where
  /-- Nothing. -/
  | unknown
  /-- The value. -/
  | value (v : Literal)
  /-- A remark. -/
  | remark (text : String)
  deriving Repr, Inhabited

/-- A field of a class. -/
structure Field where
  /-- The name. -/
  name : String
  /-- The type. -/
  type : TypeName
  /-- Whether the type is marked as one that allows null. -/
  nullable : Bool
  /-- The initial value. -/
  initial : Initial := .unknown
  deriving Repr, Inhabited

/-- A default that is only remarked on. -/
structure DefaultRemark where
  /-- The name of the property. -/
  name : String
  /-- What its default is. -/
  default : String
  deriving DecidableEq, Repr, Inhabited

/-- A file. -/
structure WidgetFile where
  /-- The file that it was made from. -/
  path : String
  /-- The package of the imports. -/
  package : String
  /-- The files that are imported from the package. -/
  imports : List String
  /-- The name of the class. -/
  name : String
  /-- Defaults that no parameter can have. -/
  remarks : List DefaultRemark
  /-- The parameters. -/
  parameters : List Parameter
  /-- The fields. -/
  fields : List Field
  /-- The fields of the class that holds the state, if the component keeps state. -/
  state : Option (List Field)
  /-- What is shown. -/
  root : Widget
  deriving Inhabited

/-! ### What a file holds -/

/-- Whether a name can be that of a field. -/
def isIdentifier (name : String) : Bool :=
  match name.toList with
  | [] => false
  | c :: rest =>
    (Text.isAsciiLetter c || c = '_')
      && rest.all fun x => Text.isAsciiAlphanumeric x || x = '_'

/-- The name of the class for a component without a name: the words of the name of its file. -/
def nameOfFile (path : String) : String :=
  let file := Text.lastSegment (fun c => c = '/' || c = '\\') path
  let stem := Text.firstSegment (· = '.') file
  String.join ((Text.split (fun c => c = '-' || c = '_' || c = ' ') stem).map Text.capitalize)

/-- The name of a class that has no better one. -/
def defaultClassName : String := "GeneratedWidget"

/-- What a class can be called in place of the given name. -/
def asClassName (name : String) : String :=
  let kept := name.toList.filter fun c => Text.isAsciiAlphanumeric c || c = '_'
  match kept with
  | c :: _ => if Text.isAsciiLetter c then String.ofList kept else defaultClassName
  | [] => defaultClassName

/-- The name of the class for a component. -/
def className (s : ComponentStructure) : String :=
  asClassName (s.componentName.getD (nameOfFile s.filePath))

/-- The files that hold the components of a tree. -/
def importedFiles (components : List String) (own : String) : List String :=
  Text.sortedSet
    (((components.map (Text.firstSegment (· = '.'))).filter (· ≠ own)).map Naming.snakeCase)

/-- The default of a property, if a parameter can have it. -/
def constantDefault? {π : Type} (p : PropRecord π) : Option Literal :=
  match p.defaultValue with
  | none => none
  | some .null => none
  | some v => if p.defaultIsLiteral then some v else none

/-- The remark on the default of a property that no parameter can have. -/
def defaultRemark? {π : Type} (p : PropRecord π) : Option DefaultRemark :=
  match p.required || p.defaultIsLiteral, p.defaultValue with
  | false, some (.text source) => some ⟨p.name, source⟩
  | _, _ => none

/-- The parameter for a property. -/
def parameterOf {π : Type} (p : PropRecord π) : Parameter :=
  ⟨p.name, p.required, if p.required then none else constantDefault? p⟩

/-- The field for a property. -/
def fieldOf {π : Type} (p : PropRecord π) : Field :=
  let type := TypeName.ofText p.type
  { name := p.name
    type := type
    nullable := !p.required && (constantDefault? p).isNone && !type.allowsNull }

/-- The text of a value in a remark. -/
def remarkText : Literal → String
  | .text s => s
  | v => v.json

/-- The field for a state variable. -/
def stateFieldOf {π : Type} (v : StateVariable π) : Field :=
  let type := TypeName.ofText v.inferredType
  match v.initialValue with
  | none => { name := v.name, type := type, nullable := !type.allowsNull }
  | some value =>
    if value.hasType v.inferredType then
      { name := v.name, type := type, nullable := false, initial := .value value }
    else
      { name := v.name, type := type, nullable := !type.allowsNull,
        initial := .remark (remarkText value) }

/-- The file for a component. -/
def WidgetFile.ofAnalyses {π : Type} (s : ComponentStructure) (a : StateAnalysis π)
    (t : LoweredTree) (config : Config) : WidgetFile :=
  let props := a.props.filter fun p => isIdentifier p.name
  let kept := a.stateVariables.filter fun v => isIdentifier v.name
  { path := s.filePath
    package := config.packageName
    imports := importedFiles t.customComponents (className s)
    name := className s
    remarks := props.filterMap defaultRemark?
    parameters := props.map parameterOf
    fields := props.map fieldOf
    state := if a.hasState then some (kept.map stateFieldOf) else none
    root := t.root }

/-! ### Writing a file -/

/-- A parameter as it is written. -/
def Parameter.code (p : Parameter) : String :=
  if p.required then "required this." ++ p.name
  else
    match p.fallback with
    | some v => "this." ++ p.name ++ " = " ++ (if v.isCollection then "const " else "") ++ v.dart
    | none => "this." ++ p.name

/-- The type of a field as it is written. -/
def Field.typeCode (f : Field) : String := f.type.code ++ if f.nullable then "?" else ""

/-- A field of the widget as it is written. -/
def Field.finalLine (f : Field) : String := "  final " ++ f.typeCode ++ " " ++ f.name ++ ";"

/-- A field of the state as it is written. -/
def Field.stateLine (f : Field) : String :=
  "  " ++ f.typeCode ++ " " ++ f.name ++
    match f.initial with
    | .unknown => ";"
    | .value v => " = " ++ v.dart ++ ";"
    | .remark text => "; // initial: " ++ text

/-- The remark on a default as it is written. -/
def DefaultRemark.line (r : DefaultRemark) : String :=
  "  // " ++ r.name ++ " defaults to " ++ r.default

namespace WidgetFile

/-- The import of a file of a package. -/
def importLine (package file : String) : String :=
  "import 'package:" ++ package ++ "/" ++ file ++ ".dart';"

/-- The lines in front of the classes. -/
def headLines (f : WidgetFile) : List String :=
  ["// Generated from " ++ f.path ++ ".", importLine "flutter" "material"]
    ++ f.imports.map (importLine f.package) ++ [""]

/-- The lines of the constructor and the fields. -/
def memberLines (f : WidgetFile) : List String :=
  f.remarks.map DefaultRemark.line
    ++ ["  const " ++ f.name ++ "(\x7b"
      ++ ", ".intercalate ("super.key" :: f.parameters.map Parameter.code) ++ "\x7d);"]
    ++ (if f.fields.isEmpty then [] else "" :: f.fields.map Field.finalLine)

/-- The lines of the method that builds the tree; the given names are taken from the widget
first. -/
def buildLines (f : WidgetFile) (names : List String) : List String :=
  ["  @override", "  Widget build(BuildContext context) \x7b"]
    ++ names.map (fun n => "    final " ++ n ++ " = widget." ++ n ++ ";")
    ++ ["    return " ++ emitAt 2 f.root ++ ";", "  \x7d"]

/-- The lines of the classes of a component. -/
def classLines (f : WidgetFile) : List String :=
  match f.state with
  | none =>
    ["class " ++ f.name ++ " extends StatelessWidget \x7b"] ++ f.memberLines ++ [""]
      ++ f.buildLines [] ++ ["\x7d"]
  | some fields =>
    ["class " ++ f.name ++ " extends StatefulWidget \x7b"] ++ f.memberLines
      ++ ["", "  @override",
        "  State<" ++ f.name ++ "> createState() => _" ++ f.name ++ "State();", "\x7d", "",
        "class _" ++ f.name ++ "State extends State<" ++ f.name ++ "> \x7b"]
      ++ fields.map Field.stateLine ++ [""]
      ++ f.buildLines (f.fields.map (·.name)) ++ ["\x7d"]

/-- The code of a file. -/
def code (f : WidgetFile) : String :=
  String.join ((f.headLines ++ f.classLines).map (· ++ "\n"))

end WidgetFile

end JsxWidgets.Dart
