import JsxWidgets.Expression.Literal
import JsxWidgets.Expression.Path
import JsxWidgets.Syntax.Markup
import JsxWidgets.Syntax.Survey
import JsxWidgets.Variable.Basic

/-!
# Usage of a state variable

One walk finds where a variable is read, changed and handed on. What a read is for is told by the
nearest constructs around it, of which only a few are looked at.

## What is followed

A variable of a hook is followed by its name and its setter. A variable of a class is a key of its
state: it is read as `this.state.key` and changed by a call of `this.setState` that writes the key.
-/

namespace JsxWidgets.Usage

open Syntax Expression

/-- What is followed. -/
inductive Subject where
  /-- A variable with its setter. -/
  | hook (name setter : String)
  /-- A key of the state of a class. -/
  | classKey (key : String)

/-- What is found of it. -/
inductive Finding where
  /-- A read. -/
  | read (r : ReadLocation Place)
  /-- A change. -/
  | update (place : Place)
  /-- It is handed on. -/
  | passed (p : PropPassing)

/-- Kinds of constructs around a read. -/
inductive Frame where
  | jsx | call | conditional | other
  deriving DecidableEq

/-! ### The subject in an expression -/

/-- Whether an expression is the subject, apart from parentheses and types. -/
def Subject.isNamedBy (s : Subject) (e : Node) : Bool :=
  match s, e.unwrap.form with
  | .hook name _, .name t => t = name
  | .classKey key, .member => (path? e.unwrap).bind (Text.dropStart? "this.state.") = some key
  | _, _ => false

/-- The keys that an object writes. -/
def writtenKeys (e : Node) : List String :=
  match e.unwrap with
  | ⟨.object, _, properties⟩ =>
    properties.filterMap fun p =>
      match p with
      | ⟨.keyed, _, key :: _⟩ => keyName? key
      | ⟨.shorthand t, _, _⟩ => some t
      | _ => none
  | _ => []

/-- The keys that the argument of a call of `setState` writes: those of an object, or of an object
that an arrow function gives. -/
def stateKeys (arg : Node) : List String :=
  match arg.unwrap with
  | ⟨.arrow, _, _ :: result :: _⟩ => writtenKeys result
  | e => writtenKeys e

/-- Whether a call changes the subject. -/
def Subject.isChangedBy (s : Subject) (call : Node) : Bool :=
  match s with
  | .hook _ setter => calleePath? call = some setter
  | .classKey key =>
    calleePath? call = some "this.setState"
      && (argument? call 0).any fun arg => (stateKeys arg).contains key

/-- Whether a part of an object pattern takes a key. -/
def takesKey (key : String) (part : Node) : Bool :=
  match part with
  | ⟨.patName t, _, _⟩ => t = key
  | ⟨.patKeyed, _, k :: _⟩ => keyName? k = some key
  | _ => false

/-- Whether a variable takes the subject out of the state of the class. -/
def Subject.isTakenBy (s : Subject) (declarator : Node) : Bool :=
  match s, declarator with
  | .classKey key, ⟨.declarator, _, [⟨.objectPat, _, ⟨_, _, parts⟩ :: _⟩, value]⟩ =>
    path? value = some "this.state" && parts.any (takesKey key)
  | _, _ => false

/-! ### Contexts -/

/-- What a walk knows of the constructs around. -/
structure Around where
  /-- The constructs, innermost first. -/
  frames : List Frame
  /-- Whether the node is the target of an assignment and so no expression of its own. -/
  isTarget : Bool

/-- The constructs that are looked at for what a read is for. -/
def contextDepth : Nat := 5

/-- What a kind of construct says a read is for. -/
def Frame.context? : Frame → Option ReadContext
  | .jsx => some .jsx
  | .call => some .callExpression
  | .conditional => some .conditional
  | .other => none

/-- What a read is for. -/
def Around.context (a : Around) : ReadContext :=
  ((a.frames.take contextDepth).findSome? Frame.context?).getD .unknown

/-- The kind of construct that an expression is. -/
def expressionFrame : Form → Frame
  | .markup => .jsx
  | .call | .construct | .optMember | .optCall => .call
  | .conditional => .conditional
  | .binary op => if op.isShortCircuit then .conditional else .other
  | _ => .other

/-- The kind of construct that a statement is. -/
def statementFrame : Form → Frame
  | .branch | .switch => .conditional
  | _ => .other

/-- The frame that a node puts around its parts, if it puts one. -/
def frame? (form : Form) : Option Frame :=
  if form.isExpr then some (expressionFrame form)
  else if form.isStmt then some (statementFrame form)
  else
    match form with
    | .container | .opening _ => some .jsx
    | _ => none

/-! ### The walk -/

/-- Where an expression that is the subject is said to be read. One in parentheses has no place of
its own. -/
def readPlace (e : Node) : Place :=
  match e.form with
  | .name _ | .member => e.place
  | _ => 0

/-- What is found at an expression. -/
def expressionFindings (s : Subject) (a : Around) (e : Node) : List Finding :=
  (if s.isNamedBy e then [.read ⟨readPlace e, a.context⟩] else [])
    ++ (if e.form = .call ∧ s.isChangedBy e then [.update e.place] else [])

/-- What is found at an attribute. -/
def passing? (s : Subject) (tag : TagName) (attr : Node) : Option Finding :=
  match attr.form, attr.attributeValue with
  | .attr name, .expression e =>
    if s.isNamedBy e then some (.passed ⟨tag.text, name.text⟩) else none
  | _, _ => none

/-- What is found at a node. -/
def note (s : Subject) (a : Around) (n : Node) : List Finding :=
  if n.form.isExpr then if a.isTarget then [] else expressionFindings s a n
  else
    match s, n.form with
    | .hook name _, .shorthand t => if t = name then [.read ⟨n.place, a.context⟩] else []
    | _, .opening tag => n.attributes.filterMap (passing? s tag)
    | _, .declarator => if s.isTakenBy n then [.read ⟨n.place, a.context⟩] else []
    | _, _ => []

/-- How the parts of a node are entered. A member that is the subject is not looked into. -/
def enter (s : Subject) (a : Around) (n : Node) (_ : Nat) : Option Around :=
  if n.form = .target then some ⟨a.frames, true⟩
  else if a.isTarget then some ⟨a.frames, false⟩
  else if n.form = .member ∧ s.isNamedBy n then none
  else
    match frame? n.form with
    | some f => some ⟨f :: a.frames, false⟩
    | none => some ⟨a.frames, false⟩

/-- The walk. -/
def survey (s : Subject) : Survey Around Finding := ⟨note s, enter s⟩

/-- What is found of a subject below some nodes. -/
def findings (s : Subject) (nodes : List Node) : List Finding := (survey s).runAll ⟨[], false⟩ nodes

/-- The reads among findings. -/
def reads (fs : List Finding) : List (ReadLocation Place) :=
  fs.filterMap fun f =>
    match f with
    | .read r => some r
    | _ => none

/-- The changes among findings. -/
def updates (fs : List Finding) : List Place :=
  fs.filterMap fun f =>
    match f with
    | .update p => some p
    | _ => none

/-- The attributes among findings. -/
def passings (fs : List Finding) : List PropPassing :=
  fs.filterMap fun f =>
    match f with
    | .passed p => some p
    | _ => none

end JsxWidgets.Usage
