import JsxWidgets.Component
import JsxWidgets.Props.Basic
import JsxWidgets.Props.TypeText

/-!
# Analysis of properties

The properties of a function are those that its first parameter takes; those of a class are found
where it reads them. Stated types are more to be trusted than inferred ones and replace them.
-/

namespace JsxWidgets

open Syntax Expression

namespace PropRecord

/-- Applies what types say, row by row, to the first property of the name. -/
def applyRows {π : Type} (records : List (PropRecord π)) (rows : List TypeRow) :
    List (PropRecord π) :=
  rows.foldl (fun rs row =>
    changeFirst row.name (fun r => { r with type := row.type, required := !row.isOptional }) rs)
    records

/-! ### Functions -/

/-- The name that a node refers to as a variable: a reference, or a property under its own name. -/
def referredName? (n : Node) : Option String :=
  match n.form with
  | .name t | .shorthand t => some t
  | _ => none

/-- The references to variables below some nodes, with their places. -/
def references (nodes : List Node) : List (String × Place) :=
  nodes.filterMap fun n => (referredName? n).map fun t => (t, n.place)

/-- Adds references as usages to the first property of each name. -/
def applyReferences (records : List (PropRecord Place)) (refs : List (String × Place)) :
    List (PropRecord Place) :=
  refs.foldl (fun rs ref => changeFirst ref.1 (use ref.2) rs) records

/-- The properties of a function with a parameter and a body. -/
def ofFunction (parameter body : Node) : List (PropRecord Place) :=
  applyReferences (applyRows (ofPattern parameter) (TypeRow.ofPattern parameter))
    (references body.nodes)

/-! ### Classes -/

/-- What a class reads of its properties. -/
inductive ClassRead where
  /-- One property. -/
  | single (name : String) (place : Place)
  /-- The properties that a pattern takes. -/
  | pattern (records : List (PropRecord Place))

/-- What a node reads of the properties of the class around it. -/
def classRead? (n : Node) : Option ClassRead :=
  match n with
  | ⟨.member, place, [object, ⟨.word name, _, _⟩]⟩ =>
    if path? object = some "this.props" then some (.single name place) else none
  | ⟨.optMember, place, [object, ⟨.word name, _, _⟩]⟩ =>
    if path? object = some "this.props" then some (.single name place) else none
  | ⟨.declarator, _, [pattern, value]⟩ =>
    if path? value = some "this.props" then some (.pattern (ofPattern pattern)) else none
  | _ => none

/-- Adds a property unless there is one of its name. -/
def addNew (records : List (PropRecord Place)) (r : PropRecord Place) : List (PropRecord Place) :=
  if records.any (·.name = r.name) then records else records ++ [r]

/-- Adds what a class reads. -/
def applyRead (records : List (PropRecord Place)) : ClassRead → List (PropRecord Place)
  | .single name place =>
    changeFirst name (use place) (addNew records (ofDefault name "unknown" none))
  | .pattern found => found.foldl addNew records

/-- The properties of a class. -/
def ofClass (cls : Node) : List (PropRecord Place) :=
  (cls.nodes.filterMap classRead?).foldl applyRead []

/-! ### Components -/

/-- The properties of a component by its code alone; a function that takes none has none. -/
def ofComponent (c : Component) : List (PropRecord Place) :=
  match c.body, c.propsParameter? with
  | .classBody cls, _ => ofClass cls
  | .function ⟨_, _, _ :: body :: _⟩, some parameter => ofFunction parameter body
  | .arrow ⟨_, _, _ :: body :: _⟩, some parameter => ofFunction parameter body
  | _, _ => []

end PropRecord

/-- **The properties of the component of a module.** -/
def analyzeProps (m : Module) : List (PropRecord Place) :=
  match m.component? with
  | some c => PropRecord.applyRows (PropRecord.ofComponent c) (typeRows m)
  | none => []

end JsxWidgets
