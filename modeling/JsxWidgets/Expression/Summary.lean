import JsxWidgets.Decimal.Shortest
import JsxWidgets.Expression.Literal

/-!
# Summaries of expressions

`summary` is a short text of an expression for messages and for values that are handed on unchanged.
It is written as the language would write it, down to a fixed depth; what lies deeper, and what a
reader of a message does not want to see, is an ellipsis.
-/

namespace JsxWidgets.Expression

open Syntax

/-- What stands for something left out. -/
def ellipsis : String := "…"

/-- Opens a block. -/
def openBrace : String := "\x7b"

/-- Closes a block. -/
def closeBrace : String := "\x7d"

/-- A block that is left out. -/
def elidedBlock : String := openBrace ++ ellipsis ++ closeBrace

/-- The summary of a pattern. -/
def patternSummary : Node → String
  | ⟨.bind t, _, _⟩ => t
  | ⟨.arrayPat, _, _⟩ => "[…]"
  | ⟨.objectPat, _, _⟩ => elidedBlock
  | ⟨.rest, _, [inner, _]⟩ => "..." ++ patternSummary inner
  | ⟨.defaultPat, _, [inner, _]⟩ => patternSummary inner
  | _ => ellipsis

/-- The pieces of a template as they are written, with the texts of the substitutions between
them. -/
def interleave : List Quasi → List String → String
  | [], _ => ""
  | q :: qs, [] => q.raw ++ interleave qs []
  | q :: qs, s :: ss => q.raw ++ "$" ++ openBrace ++ s ++ closeBrace ++ interleave qs ss

/-- The summary of markup: its tag, or the mark of a fragment. -/
def markupSummary : Node → String
  | ⟨.element, _, ⟨.opening tag, _, _⟩ :: _⟩ => "<" ++ tag.text ++ " />"
  | _ => "<>…</>"

/-- A text in double quotes. -/
def quotedSummary (s : String) : String :=
  "\"" ++ String.ofList (s.toList.flatMap fun c => if c = '\x22' then ['\\', c] else [c]) ++ "\""

mutual

/-- The summary of an expression with room for a number of levels. -/
def summaryWithin : Nat → Node → String
  | 0, _ => ellipsis
  | room + 1, ⟨form, _, parts⟩ =>
    match form, parts with
    | .name t, _ => t
    | .this, _ => "this"
    | .string v, _ => quotedSummary v
    | .number v, _ => v.positional
    | .bool v, _ => if v then "true" else "false"
    | .null, _ => "null"
    | .bigint v, _ => toString v ++ "n"
    | .regex pattern flags, _ => "/" ++ pattern ++ "/" ++ flags
    | .paren, [e] => "(" ++ summaryWithin room e ++ ")"
    | .member, [o, ⟨.word t, _, _⟩] => summaryWithin room o ++ "." ++ t
    | .member, [o, ⟨.hidden t, _, _⟩] => summaryWithin room o ++ ".#" ++ t
    | .member, [o, ⟨.computed, _, [k]⟩] =>
      summaryWithin room o ++ "[" ++ summaryWithin room k ++ "]"
    | .optMember, [o, ⟨.word t, _, _⟩] => summaryWithin room o ++ "?." ++ t
    -- a private name behind an optional access is cut, a plain one is not
    | .optMember, [o, ⟨.hidden _, _, _⟩] => summaryWithin room o ++ "?.#" ++ ellipsis
    | .optMember, [o, ⟨.computed, _, [k]⟩] =>
      summaryWithin room o ++ "?.[" ++ summaryWithin room k ++ "]"
    | .optCall, [f, ⟨_, _, args⟩, _] =>
      summaryWithin room f ++ "?.(" ++ ", ".intercalate (itemSummaries room args) ++ ")"
    | .call, [⟨.superCallee, _, _⟩, ⟨_, _, args⟩, _] =>
      "super(" ++ ", ".intercalate (itemSummaries room args) ++ ")"
    | .call, [⟨.importCallee, _, _⟩, ⟨_, _, args⟩, _] =>
      "import(" ++ ", ".intercalate (itemSummaries room args) ++ ")"
    | .call, [f, ⟨_, _, args⟩, _] =>
      summaryWithin room f ++ "(" ++ ", ".intercalate (itemSummaries room args) ++ ")"
    | .construct, [f, ⟨_, _, args⟩, _] =>
      "new " ++ summaryWithin room f ++ "(" ++ ", ".intercalate (itemSummaries room args) ++ ")"
    | .binary op, [l, r] =>
      summaryWithin room l ++ " " ++ op.text ++ " " ++ summaryWithin room r
    | .unary op, [e] => op.text ++ (if op.isWord then " " else "") ++ summaryWithin room e
    | .update op inFront, [e] =>
      if inFront then op.text ++ summaryWithin room e else summaryWithin room e ++ op.text
    | .conditional, [test, yes, no] =>
      summaryWithin room test ++ " ? " ++ summaryWithin room yes ++ " : " ++ summaryWithin room no
    | .await, [e] => "await " ++ summaryWithin room e
    | .assign op, [⟨.binder t, _, _⟩, e] => t ++ " " ++ op.text ++ " " ++ summaryWithin room e
    | .assign op, [⟨.target, _, [⟨.member, p, inner⟩]⟩, e] =>
      summaryWithin room ⟨.member, p, inner⟩ ++ " " ++ op.text ++ " " ++ summaryWithin room e
    | .assign op, [_, e] => ellipsis ++ " " ++ op.text ++ " " ++ summaryWithin room e
    | .template quasis, holes => "`" ++ interleave quasis (summaries room holes) ++ "`"
    | .arrow, ⟨_, _, params⟩ :: ⟨.body, _, _⟩ :: _ =>
      "(" ++ ", ".intercalate (params.map patternSummary) ++ ") => " ++ elidedBlock
    | .arrow, ⟨_, _, params⟩ :: e :: _ =>
      "(" ++ ", ".intercalate (params.map patternSummary) ++ ") => " ++ summaryWithin room e
    | .functionExpr, ⟨.binder t, _, _⟩ :: _ => "function " ++ t ++ "() " ++ elidedBlock
    | .functionExpr, _ => "function() " ++ elidedBlock
    | .object, [] => openBrace ++ closeBrace
    | .object, _ => elidedBlock
    | .array, [] => "[]"
    -- up to three items are shown, a longer list is cut as a whole
    | .array, [a] => "[" ++ ", ".intercalate (itemSummaries room [a]) ++ "]"
    | .array, [a, b] => "[" ++ ", ".intercalate (itemSummaries room [a, b]) ++ "]"
    | .array, [a, b, c] => "[" ++ ", ".intercalate (itemSummaries room [a, b, c]) ++ "]"
    | .array, _ => "[…]"
    | .markup, [m] => markupSummary m
    -- a type assertion takes no room of its own
    | .asType, [e, _] => summaryWithin (room + 1) e
    | .satisfies, [e, _] => summaryWithin (room + 1) e
    | .asConst, [e] => summaryWithin (room + 1) e
    | .nonNull, [e] => summaryWithin room e ++ "!"
    | .sequence, es => ", ".intercalate (summaries room es)
    | _, _ => ellipsis

/-- The summaries of several expressions. -/
def summaries : Nat → List Node → List String
  | _, [] => []
  | room, e :: es => summaryWithin room e :: summaries room es

/-- The summaries of arguments of a call or of items of an array; nothing is written for a hole. -/
def itemSummaries : Nat → List Node → List String
  | _, [] => []
  | room, ⟨.spread, _, [e]⟩ :: rest => ("..." ++ summaryWithin room e) :: itemSummaries room rest
  | room, ⟨.item, _, [e]⟩ :: rest => summaryWithin room e :: itemSummaries room rest
  | room, _ :: rest => "" :: itemSummaries room rest

end

/-- The levels of an expression that a summary shows. -/
def summaryDepth : Nat := 7

/-- The summary of an expression. -/
def summary (e : Node) : String := summaryWithin summaryDepth e

/-- The value of an expression if it is written out in full, else its summary as a text. -/
def snapshot (e : Node) : Literal := (literal? e).getD (.text (summary e))

end JsxWidgets.Expression
