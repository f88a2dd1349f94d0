import JsxWidgets.Component
import JsxWidgets.Config.Basic
import JsxWidgets.Syntax.Survey
import JsxWidgets.Widget.Attribute
import JsxWidgets.Widget.Payload

/-!
# Lowering

Elements become widgets. A known element follows its row of the table, a component keeps its name
and its attributes, and any other element becomes a container. An expression among the children is
not evaluated; a placeholder says what it would have shown.

## Text

An element that shows text takes the text of everything inside it. Elements of the same sort inside
it are merged, all others are left out with a comment.
-/

namespace JsxWidgets

open Syntax Expression

/-! ### Expressions among children -/

/-- Whether a selector is the member `map`. -/
def selectsMap : Node → Bool
  | ⟨.member, _, [_, ⟨.word "map", _, _⟩]⟩ => true
  | ⟨.optMember, _, [_, ⟨.word "map", _, _⟩]⟩ => true
  | _ => false

/-- Whether an expression maps over a list. -/
def isMapCall (e : Node) : Bool :=
  match e.unwrap with
  | ⟨.call, _, callee :: _⟩ => selectsMap callee.unwrap
  | ⟨.optCall, _, callee :: _⟩ => selectsMap callee.unwrap
  | _ => false

/-- What an expression among children would show. -/
def shownKind (e : Node) : String :=
  match e.unwrap.form with
  | .conditional => "conditional render"
  | .binary op =>
    if op.isShortCircuit then "conditional render"
    else if isMapCall e then "list render" else "expression"
  | _ => if isMapCall e then "list render" else "expression"

/-- The message for an expression that is not evaluated. -/
def shownMessage (e : Node) : String := shownKind e ++ ": " ++ summary e

/-- A placeholder for an expression. -/
def placeholderFor (e : Node) : Noted Widget := do
  Noted.unmapped (shownMessage e)
  return .placeholder (shownMessage e)

/-! ### Children -/

/-- The comment for children that cannot be shown. -/
def droppedMessage (count : Nat) (target : String) : String :=
  toString count ++ " child widget(s) dropped: " ++ target ++ " has no child slot"

/-- Children in a slot; several in the place of one are put into a column. -/
def Slot.place (slot : Slot) (ws : List Widget) : Children :=
  match slot, ws with
  | .none, _ => .none
  | _, [] => .none
  | .single name, [w] => .single name w
  | .single name, ws => .single name (.column ws)
  | .many name, ws => .many name ws

/-- What is said when children cannot be shown. -/
def Slot.dropped (slot : Slot) (target : String) (ws : List Widget) : Noted (List String) :=
  match slot, ws with
  | .none, _ :: _ => do
    Noted.unmapped (droppedMessage ws.length target)
    return [droppedMessage ws.length target]
  | _, _ => return []

/-- A widget for several that stand side by side. -/
def siblings (ws : List Widget) : Widget :=
  match ws with
  | [] => .empty
  | [w] => w
  | ws => .column ws

/-- The text of an expression that is text; a blank text is none. -/
def plainText? (e : Node) : Option String :=
  match e.unwrap.form with
  | .string s => some s
  | .number _ => some (summary e)
  | _ => none

/-! ### Text -/

/-- What the children of a text element give: pieces of the text, and what is added to the
widget. -/
structure TextContent where
  /-- The pieces. -/
  pieces : List TextPiece := []
  /-- What is added to the widget. -/
  additions : Additions := {}

/-- Contents one after the other. -/
def TextContent.append (a b : TextContent) : TextContent :=
  ⟨a.pieces ++ b.pieces, a.additions ++ b.additions⟩

instance : Append TextContent := ⟨TextContent.append⟩

/-- A single piece. -/
def TextContent.piece (p : TextPiece) : TextContent := { pieces := [p] }

/-- Something left out of a text, with a remark. -/
def leftOut (message : String) : Noted TextContent := do
  Noted.unmapped message
  return { additions := .remark message }

/-- What an expression gives to a text. -/
def expressionText (e : Node) : Noted TextContent :=
  match plainText? e with
  | some s =>
    match e.unwrap.form with
    | .string _ => return if Text.isAllBlank s then {} else .piece (.fixed s)
    | _ => return .piece (.fixed s)
  | none =>
    match path? e with
    | some _ => return .piece (.computed (summary e.unwrap))
    | none => leftOut (shownMessage e.unwrap)

/-- Whether an element shows text only. -/
def isTextLike (overrides : Overrides) (tag : String) : Bool :=
  (overrides.resolve? tag).any (·.row.roles.textLike)

mutual

/-- What a child gives to the text of a widget. -/
def collectText (overrides : Overrides) (target : String) : Node → Noted TextContent
  | ⟨form, _, parts⟩ =>
    match form, parts with
    | .text raw, _ =>
      let text := Text.normalize raw
      return if text.isEmpty then {} else .piece (.fixed text)
    | .container, [⟨.absent, _, _⟩] => return {}
    | .container, [e] => expressionText e
    | .element, [⟨.opening tag, _, ⟨_, _, attributes⟩ :: _⟩, ⟨_, _, nodes⟩, _] =>
      if isTextLike overrides tag.text then do
        let added ← lowerNestedAttributes tag.text target attributes
        let inner ← collectTexts overrides target nodes
        return { additions := added } ++ inner
      else leftOut ("<" ++ tag.text ++ "> dropped: " ++ target ++ " takes text only")
    | .fragment, nodes => collectTexts overrides target nodes
    | .spreadChild, [e] =>
      leftOut ("spread child " ++ openBrace ++ "..." ++ summary e ++ closeBrace ++ " not lowered")
    | _, _ => return {}

/-- What children give to the text of a widget. -/
def collectTexts (overrides : Overrides) (target : String) : List Node → Noted TextContent
  | [] => return {}
  | n :: ns => do
    let first ← collectText overrides target n
    let rest ← collectTexts overrides target ns
    return first ++ rest

end

/-! ### Elements -/

/-- The widget of a text element from its attributes and its content. -/
def textWidget (row : ElementRow) (tag target : String) (given : Additions)
    (content : TextContent) : Widget :=
  .mk target
    (.positional (TextPiece.payload content.pieces)
      :: (given.properties ++ extraArguments row given.properties
        ++ content.additions.properties))
    (given.comments ++ content.additions.comments) .none (some tag)

/-- The argument that makes an element lead somewhere, unless it has one. -/
def tapArgument (row : ElementRow) (ps : List Property) : List Property :=
  if row.roles.navigational && !Widget.hasKey "onTap" ps then [.named "onTap" (.raw emptyHandler)]
  else []

/-- The widget of a known element from its attributes and its children. -/
def boxWidget (row : ElementRow) (tag target : String) (given : Additions)
    (ws : List Widget) (remarks : List String) : Widget :=
  let ps := given.properties ++ extraArguments row given.properties
  .mk target (ps ++ tapArgument row ps) (given.comments ++ remarks) (row.slot.place ws) (some tag)

/-- The argument that an attribute of a component becomes if its value is no markup. -/
def plainArgument (name : String) (value : GivenValue) : Value :=
  match value with
  | .standsAlone => .flag true
  | .text s => .text s
  | .expression e => .raw (if Naming.isEventHandler name then handlerCode value else summary e)
  | .markup n => .raw (markupSummary n)

/-- The row and the widget for an element that is no component. -/
def elementRow (overrides : Overrides) (tag : String) : Noted ResolvedRow :=
  match overrides.resolve? tag with
  | some found => return found
  | none => do
    Noted.unmapped
      ("<" ++ tag ++ "> has no mapping; lowered as " ++ ElementRow.fallback.target)
    return ⟨.fallback, ElementRow.fallback.target⟩

/-- The widget of a component from its attributes and its children. -/
def componentWidget (tag : String) (given : Additions) (ws : List Widget) : Widget :=
  .mk tag given.properties given.comments ((Slot.single "child").place ws) (some tag)

mutual

/-- The widgets that a child or an expression becomes: one for an element, those of its children for
a fragment, a placeholder for an expression that is not evaluated. -/
def lowerNode (overrides : Overrides) : Node → Noted (List Widget)
  | ⟨form, place, parts⟩ =>
    match form, parts with
    | .text raw, _ =>
      let text := Text.normalize raw
      return if text.isEmpty then [] else [.ofText text]
    | .element, [⟨.opening tag, _, ⟨_, _, attributes⟩ :: _⟩, ⟨_, _, nodes⟩, _] =>
      if (overrides.resolve? tag.text).isNone && tag.isCustom then do
        Noted.component tag.text
        let given ← lowerComponentAttributes overrides tag.text attributes
        let ws ← lowerNodes overrides nodes
        return [componentWidget tag.text given ws]
      else do
        let found ← elementRow overrides tag.text
        let given ← lowerAttributes found.row tag.text found.target attributes {}
        if found.row.roles.textLike then
          let content ← collectTexts overrides found.target nodes
          return [textWidget found.row tag.text found.target given content]
        else
          let ws ← lowerNodes overrides nodes
          let remarks ← found.row.slot.dropped found.target ws
          return [boxWidget found.row tag.text found.target given ws remarks]
    | .fragment, nodes => lowerNodes overrides nodes
    | .container, [⟨.absent, _, _⟩] => return []
    | .container, [e] =>
      match plainText? e with
      | some s => return if Text.isAllBlank s then [] else [.ofText s]
      | none => lowerNode overrides e
    | .spreadChild, [e] => do
      let w ← placeholderFor e
      return [w]
    | .paren, [e] => lowerNode overrides e
    | .asType, [e, _] => lowerNode overrides e
    | .asConst, [e] => lowerNode overrides e
    | .satisfies, [e, _] => lowerNode overrides e
    | .nonNull, [e] => lowerNode overrides e
    | .markup, [n] => lowerNode overrides n
    | _, _ => do
      let w ← placeholderFor ⟨form, place, parts⟩
      return [w]

/-- The widgets that several children become. -/
def lowerNodes (overrides : Overrides) : List Node → Noted (List Widget)
  | [] => return []
  | n :: ns => do
    let first ← lowerNode overrides n
    let rest ← lowerNodes overrides ns
    return first ++ rest

/-- What an attribute of a component adds. -/
def lowerComponentAttribute (overrides : Overrides) (target : String) : Node → Noted Additions
  | ⟨form, place, parts⟩ =>
    match form, parts with
    | .attr attrName, [inner] =>
      let name := attrName.text
      let given := GivenValue.ofAttribute ⟨form, place, parts⟩
      if isClassAttribute name then lowerClass "" given
      else if name = "key" then return keyArgument given
      else
        match given with
        | .markup _ => do
          let ws ← lowerNode overrides inner
          return .argument (.named name (.widget (siblings ws)))
        | other => return .argument (.named name (plainArgument name other))
    | .spread, [e] => lowerSpread target e
    | _, _ => return {}

/-- What the attributes of a component add. -/
def lowerComponentAttributes (overrides : Overrides) (target : String) :
    List Node → Noted Additions
  | [] => return {}
  | attr :: rest => do
    let added ← lowerComponentAttribute overrides target attr
    let more ← lowerComponentAttributes overrides target rest
    return added ++ more

end

/-- The widget that markup becomes: an element, or the children of a fragment. -/
def lowerMarkup (overrides : Overrides) (markup : Node) : Noted Widget :=
  siblings <$> lowerNode overrides markup

/-! ### Modules -/

/-- The first element of a module. -/
def Syntax.Module.firstElement? (m : Module) : Option Node := m.nodes.find? (·.tag?.isSome)

/-- The widget for the component of a module, or for the first element if there is no component that
renders something. -/
def lowerModule (overrides : Overrides) (m : Module) : Noted Widget :=
  match m.component?.bind (·.renderedMarkup?) with
  | some markup => lowerMarkup overrides markup
  | none =>
    match m.firstElement? with
    | some element => do
      Noted.ambiguous
        "no rendered JSX found for the component; lowering the first JSX element in the file"
      lowerMarkup overrides element
    | none => do
      Noted.ambiguous "no JSX to lower"
      return .empty

/-- The widget tree of a file. -/
structure LoweredTree where
  /-- The name of the component. -/
  componentName : Option String
  /-- The tree. -/
  root : Widget
  /-- The class names, which no widget has. -/
  classNames : List String
  /-- The components that are used. -/
  customComponents : List String
  /-- What has no rule. -/
  diagnostics : List (Diagnostic Location)
  deriving Inhabited

namespace LoweredTree

/-- A tree with its notes. -/
def ofNoted (name : Option String) (w : Noted Widget) : LoweredTree :=
  { componentName := name
    root := w.value
    classNames := Text.sortedSet w.notes.classNames
    customComponents := Text.sortedSet w.notes.components
    diagnostics := w.notes.diagnostics }

end LoweredTree

/-- **The widget tree of a module** with a component of the given name. -/
def lowerToWidgetTree (m : Module) (name : Option String) (config : Config) : LoweredTree :=
  .ofNoted name (lowerModule config.targetOverrides m)

end JsxWidgets
