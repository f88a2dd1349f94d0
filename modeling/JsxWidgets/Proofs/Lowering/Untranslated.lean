import JsxWidgets.Proofs.Lowering.Forms

/-!
# What is not translated

Everything that the lowering does not translate is reported with a message, and leaves something in
the tree for the reader: a comment in the place of an argument, or a comment of a widget. An unknown
tag leaves the widget that is made from it. `Untranslated` lists the kinds of such constructs, with
the message and the trace of each.
-/

namespace JsxWidgets

open Syntax Expression

/-- The text that stands for a spread. -/
def spreadText (e : Node) : String := openBrace ++ "..." ++ summary e ++ closeBrace

/-- The comment that a spread becomes. -/
def spreadComment (e : Node) : Property :=
  .comment "" (spreadText e ++ " spread attributes not lowered")

/-- The comment that an attribute without a rule becomes, under a name. -/
def unhandledComment (key : String) (value : GivenValue) : Property :=
  .comment key ("unhandled attribute (" ++ value.describe ++ ")")

/-- How remarks and comments tell where an attribute inside a text stands. -/
def nestedMark (tag : String) : String := "<" ++ tag ++ "> "

/-- **A construct that is not translated.** -/
inductive Untranslated where
  /-- A tag that neither the table nor its spelling explains. -/
  | unknownTag (tag : String)
  /-- The attributes that an object holds. -/
  | spread (target : String) (e : Node)
  /-- An attribute without a rule. -/
  | unruled (tag name : String) (value : GivenValue)
  /-- An attribute of an element that is merged into a text. -/
  | merged (tag target name : String) (value : GivenValue)
  /-- An expression that is not evaluated. -/
  | expression (e : Node)
  /-- The values of an iterable as children. -/
  | spreadChild (e : Node)
  /-- The values of an iterable inside a text. -/
  | spreadInText (e : Node)
  /-- An element inside a text that does not show text only. -/
  | elementInText (tag target : String)
  /-- The children of an element without a slot. -/
  | dropped (count : Nat) (target : String)

namespace Untranslated

/-- The message. -/
def message : Untranslated → String
  | .unknownTag tag => unknownTagMessage tag
  | .spread target e => "spread attributes " ++ spreadText e ++ " on <" ++ target ++ ">"
  | .unruled tag name _ => "attribute " ++ name ++ " on <" ++ tag ++ "> has no lowering rule"
  | .merged tag target name _ =>
    "attribute " ++ name ++ " on <" ++ tag ++ "> nested in " ++ target ++ " is not lowered"
  | .expression e => shownMessage e
  | .spreadChild e => shownMessage e
  | .spreadInText e => "spread child " ++ spreadText e ++ " not lowered"
  | .elementInText tag target => "<" ++ tag ++ "> dropped: " ++ target ++ " takes text only"
  | .dropped count target => droppedMessage count target

/-- The report. -/
def diagnostic (u : Untranslated) : Diagnostic Location := Noted.unmappedDiagnostic u.message

/-- **The trace in a widget**: an attribute leaves a comment under its name, a spread leaves a
comment with its text, and everything else leaves its message. A tag leaves the widget that is made
from it. -/
def LeftIn (w : Widget) : Untranslated → Prop
  | .unknownTag tag => w.source = some tag
  | .spread _ e => spreadComment e ∈ w.properties
  | .unruled _ name value => unhandledComment name value ∈ w.properties
  | .merged tag _ name value => unhandledComment (nestedMark tag ++ name) value ∈ w.properties
  | .expression e => shownMessage e ∈ w.comments
  | .spreadChild e => shownMessage e ∈ w.comments
  | .spreadInText e => (spreadInText e).message ∈ w.comments
  | .elementInText tag target => (elementInText tag target).message ∈ w.comments
  | .dropped count target => droppedMessage count target ∈ w.comments

end Untranslated

/-- The notes for several constructs that are not translated. -/
def Notes.reporting (us : List Untranslated) : Notes where
  diagnostics := us.map (·.diagnostic)

end JsxWidgets
