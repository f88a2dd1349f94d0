import JsxWidgets.Syntax.Grammar.Types

/-!
# The grammar of markup

Elements and fragments. Inside a tag, between tags, and inside braces the same characters form
different tokens, so every token here is passed together with the way in which the next one is read.
Markup may stand for an expression, be a child, or be the value of an attribute; what is read behind
its last bracket is therefore given to the rule as an argument.
-/

namespace JsxWidgets.Syntax

open Reading

/-- Passes a token inside a tag. -/
def passInTag : Reading Token := passWith Cursor.tagToken

/-- Passes the given bracket and reads the token behind it in the given way. -/
def expectThen (text : String) (next : Cursor → Token) : Reading Unit := do
  unless ← at? text do fail
  discard (passWith next)

/-- A word inside a tag. -/
def tagWord : Reading (Place × String) := do
  let t ← peek
  match t.kind with
  | .word text =>
    discard passInTag
    return (t.place, text)
  | _ => fail

/-- The name of a tag. A name with a namespace has no members. -/
def tagName : Reading TagName := do
  let (_, first) ← tagWord
  if ← at? ":" then
    discard passInTag
    let (_, second) ← tagWord
    -- a name with a name space has no members
    if ← at? "." then fail
    return .namespaced first second
  iterate (TagName.simple first) fun name => do
    if ← at? "." then
      discard passInTag
      let (_, property) ← tagWord
      return .more (.member name property)
    else return .done name

/-- The expression in braces behind the opening brace; the token behind the closing brace is read in
the given way. -/
def inBraces (g : Rules) (next : Cursor → Token) : Reading Node := do
  let e ← bracketed (g ()).expression
  expectThen "\x7d" next
  return e

/-- The value of an attribute. Empty braces are no value. -/
def tagAttributeValue (g : Rules) : Reading Node := do
  let t ← peek
  match t.kind with
  | .string v =>
    discard passInTag
    return .leaf (.quoted v) t.place
  | .punct "\x7b" =>
    discard pass
    return ⟨.container, t.place, [← inBraces g Cursor.tagToken]⟩
  | .punct "<" => (g ()).markup Cursor.tagToken
  | _ => fail

/-- An attribute, or the attributes that an object holds. -/
def tagAttribute? (g : Rules) : Reading (Option Node) := do
  let t ← peek
  match t.kind with
  | .punct "\x7b" =>
    discard pass
    expect "..."
    let e ← bracketed (g ()).assignment
    expectThen "\x7d" Cursor.tagToken
    return some ⟨.spread, t.place, [e]⟩
  | .word .. =>
    let (_, first) ← tagWord
    let name ←
      if ← at? ":" then do
        discard passInTag
        let (_, second) ← tagWord
        pure (AttributeName.namespaced first second)
      else pure (.simple first)
    let value ←
      if ← at? "=" then do
        discard passInTag
        tagAttributeValue g
      else pure .absent
    return some ⟨.attr name, t.place, [value]⟩
  | _ => return none

/-- The type arguments of a tag. -/
def tagTypeArguments (g : Rules) : Reading Node := do
  if (← hasTypes) ∧ (← at? "<") then
    reread Cursor.token
    let args ← typeArguments g
    reread Cursor.tagToken
    return args
  else return .list []

/-- The end of the children: the name of the closing tag, which a fragment has not. -/
structure ChildrenEnd where
  /-- The place of the closing tag. -/
  place : Place
  /-- The name. -/
  tag : Option TagName

/-- The children up to the closing tag, of which everything but the last bracket is passed. -/
def children (g : Rules) : Reading (List Node × ChildrenEnd) :=
  iterate [] fun acc => do
    let t ← peek
    match t.kind with
    | .text v =>
      discard (passWith Cursor.childToken)
      return .more (.leaf (.text v) t.place :: acc)
    | .punct "\x7b" =>
      discard pass
      if ← at? "\x7d" then
        discard (passWith Cursor.childToken)
        return .more (⟨.container, t.place, [.absent]⟩ :: acc)
      if ← eat "..." then
        return .more (⟨.spreadChild, t.place, [← inBraces g Cursor.childToken]⟩ :: acc)
      return .more (⟨.container, t.place, [← inBraces g Cursor.childToken]⟩ :: acc)
    | .punct "<" =>
      if t.next.tagToken.kind = .punct "/" then
        discard passInTag
        discard passInTag
        -- a closing tag without a name closes a fragment
        let tag ← if ← at? ">" then pure none else some <$> tagName
        return .done (acc.reverse, ⟨t.place, tag⟩)
      return .more ((← (g ()).markup Cursor.childToken) :: acc)
    | _ => fail

/-- Markup from its opening angle bracket on. The closing tag has the name of the opening one. -/
def markupRule (g : Rules) (after : Cursor → Token) : Reading Node := do
  let place ← here
  unless ← at? "<" do fail
  discard passInTag
  if ← at? ">" then
    discard (passWith Cursor.childToken)
    let (nodes, close) ← bracketed (children g)
    if close.tag.isSome then fail
    expectThen ">" after
    return ⟨.fragment, place, nodes⟩
  let tag ← tagName
  let types ← tagTypeArguments g
  let attributes ← iterate [] fun acc => do
    match ← tagAttribute? g with
    | some n => return .more (n :: acc)
    | none => return .done acc.reverse
  let opening : Node := ⟨.opening tag, place, [.list attributes, types]⟩
  if ← at? "/" then
    discard passInTag
    expectThen ">" after
    return ⟨.element, place, [opening, .list [], .absent]⟩
  expectThen ">" Cursor.childToken
  let (nodes, close) ← bracketed (children g)
  -- the closing tag repeats the name of the opening one
  if close.tag ≠ some tag then fail
  expectThen ">" after
  return ⟨.element, place, [opening, .list nodes, .leaf (.closing tag) close.place]⟩

end JsxWidgets.Syntax
