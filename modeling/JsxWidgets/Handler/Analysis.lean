import JsxWidgets.Diagnostic
import JsxWidgets.Handler.Scan
import JsxWidgets.Naming
import JsxWidgets.Syntax.Markup

/-!
# Analysis of event handlers

A handler is a function that is written in the attribute, or a name that the index of functions
knows. For any other handler there is a record with nothing in it, and a diagnostic.
-/

namespace JsxWidgets

open Syntax Expression

namespace Handler

/-- The method of the class that an expression refers to, directly or bound to the object. -/
def methodName? (e : Node) : Option String :=
  match e.unwrap.form with
  | .call =>
    ((calleePath? e.unwrap).bind (Text.dropStart? "this.")).bind (Text.dropEnd? ".bind")
  | _ => ((path? e).bind (Text.dropStart? "this.")).filter fun m => !Text.contains "." m

/-- The name of a handler, and what it does if that can be found in the file. -/
def resolve (index : FunctionIndex) (event : String) (e : Node) :
    String × Option FunctionBody :=
  match FunctionBody.ofExpr? e with
  | some body => ("inline:" ++ event, some body)
  | none =>
    match e.unwrap.form with
    | .name t => (t, index.get? t)
    | _ =>
      match methodName? e with
      | some m => (m, index.get? m)
      | none => (summary e.unwrap, none)

/-- A handler in an opening tag, with its body. -/
structure Site where
  /-- The tag. -/
  element : String
  /-- The attribute. -/
  event : String
  /-- The name. -/
  name : String
  /-- What the handler does. -/
  body : Option FunctionBody
  /-- Where the attribute is. -/
  place : Place

/-- The handler in an attribute of an element. -/
def site? (index : FunctionIndex) (tag : TagName) (attr : Node) : Option Site :=
  match attr.form, attr.attributeValue with
  | .attr name, .expression e =>
    if Naming.isEventHandler name.text then
      let (handler, body) := resolve index name.text e
      some ⟨tag.text, name.text, handler, body, attr.place⟩
    else none
  | _, _ => none

/-- The handlers in an opening tag. -/
def sites (index : FunctionIndex) (n : Node) : List Site :=
  match n.form with
  | .opening tag => n.attributes.filterMap (site? index tag)
  | _ => []

/-- The record of a handler. -/
def Site.record (vars : Variables) (s : Site) : EventHandler Place :=
  let (uses, actions) := s.body.elim ([], []) (scan vars)
  ⟨s.name, Naming.eventOf s.event, s.element, uses, actions, s.place⟩

/-- What is said about a handler without a body. -/
def Site.diagnostic? (s : Site) : Option (Diagnostic Place) :=
  match s.body with
  | some _ => none
  | none =>
    some ⟨.unmappedConstruct,
      s.event ++ " handler `" ++ s.name ++ "` on <" ++ s.element
        ++ "> could not be resolved in this file", some s.place⟩

end Handler

/-- **The event handlers of a module**, and which of them could not be found. -/
def analyzeHandlers (m : Module) (stateVariables : List (StateVariable Place)) :
    List (EventHandler Place) × List (Diagnostic Place) :=
  let sites := m.nodes.flatMap (Handler.sites (FunctionIndex.ofModule m))
  (sites.map (·.record (Handler.namesOf stateVariables)), sites.filterMap (·.diagnostic?))

end JsxWidgets
