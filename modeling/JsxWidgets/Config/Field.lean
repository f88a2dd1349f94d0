import JsxWidgets.Config.Basic
import JsxWidgets.Json.Container

/-!
# Stating a configuration

A configuration is stated as an object. What is not stated keeps its default. There are two ways to
take what is stated:

* `Config.ofJson` reads a text and refuses everything that is wrong with it;
* `Config.ofFields` takes values that are already there and passes over those that do not fit.
-/

namespace JsxWidgets.Config

open Json

/-- The choices of a configuration. -/
inductive Field where
  | frameworkPrefixes | textSampleLimit | pageMarkers | targetOverrides | packageName
  deriving DecidableEq, Repr, Inhabited

namespace Field

/-- The choices in their order. -/
def all : List Field :=
  [.frameworkPrefixes, .textSampleLimit, .pageMarkers, .targetOverrides, .packageName]

/-- The name of a choice. -/
def name : Field → String
  | .frameworkPrefixes => "frameworkPrefixes"
  | .textSampleLimit => "textSampleLimit"
  | .pageMarkers => "pageMarkers"
  | .targetOverrides => "targetOverrides"
  | .packageName => "packageName"

/-- The choice with a name. -/
def ofName? (name : String) : Option Field := all.find? (·.name = name)

/-- Reads what is chosen. -/
def read (config : Config) : Field → Reader Config
  | .frameworkPrefixes => return { config with frameworkPrefixes := ← list text }
  | .textSampleLimit => return { config with textSampleLimit := ← natural }
  | .pageMarkers => return { config with pageMarkers := ← list text }
  | .targetOverrides => return { config with targetOverrides := ← texts }
  | .packageName => return { config with packageName := ← text }

end Field

/-! ### The strict way -/

/-- A configuration of which some choices have been read. -/
structure Draft where
  /-- The configuration. -/
  config : Config := {}
  /-- The choices that have been read. -/
  seen : List Field := []

/-- Reads the value behind a name. A choice cannot be stated twice; other names mean nothing. -/
def Draft.entry (d : Draft) (name : String) : Reader Draft := do
  match Field.ofName? name with
  | some f =>
    if d.seen.contains f then throw .unfitting
    sign ':'
    return ⟨← f.read d.config, f :: d.seen⟩
  | none =>
    sign ':'
    skip
    return d

/-- Reads the values of some choices in their order, up to the closing bracket. -/
def positional (config : Config) (isFirst : Bool) : List Field → Reader Config
  | [] => do
    sign ']'
    return config
  | f :: rest => do
    if (← front) = ']' then
      pass
      return config
    unless isFirst do
      sign ','
      if (← front) = ']' then throw .malformed
    positional (← f.read config) false rest

/-- Reads a configuration: an object of choices, or a list of them in their order. -/
def reader : Reader Config := do
  let c ← front
  if c = '\x7b' then
    pass
    return (← fields true Draft.entry {}).config
  else if c = '[' then
    pass
    positional {} true Field.all
  else refuse c

/-- **The configuration that a text states**, or the first problem with it. -/
def ofJson (text : String) : Except Problem Config := reader.readAll text

/-! ### The lenient way -/

/-- The texts of a list of texts. -/
def texts? : Literal → Option (List String)
  | .array items => items.mapM fun
    | .text s => some s
    | _ => none
  | _ => none

/-- The entries of an object of texts. -/
def textTable? : Literal → Option (List (String × String))
  | .object fields => fields.mapM fun
    | (k, .text s) => some (k, s)
    | _ => none
  | _ => none

/-- A configuration with a choice made, if the value fits. -/
def Field.choose? (config : Config) (value : Literal) : Field → Option Config
  | .frameworkPrefixes => (texts? value).map fun v => { config with frameworkPrefixes := v }
  | .textSampleLimit =>
    match value with
    | .int (.ofNat n) => some { config with textSampleLimit := n }
    | _ => none
  | .pageMarkers => (texts? value).map fun v => { config with pageMarkers := v }
  | .targetOverrides => (textTable? value).map fun v => { config with targetOverrides := v }
  | .packageName =>
    match value with
    | .text s => some { config with packageName := s }
    | _ => none

/-- Makes a choice if there is a value for it that fits. -/
def Field.chooseFrom (fields : List (String × Literal)) (config : Config) (f : Field) : Config :=
  ((fields.lookup f.name).bind fun value => f.choose? config value).getD config

/-- **The configuration that values state.** What does not fit is passed over. -/
def ofFields (fields : List (String × Literal)) : Config :=
  Field.all.foldl (Field.chooseFrom fields) {}

end JsxWidgets.Config
