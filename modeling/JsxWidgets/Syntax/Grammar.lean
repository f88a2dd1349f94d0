import JsxWidgets.Text.Segment
import JsxWidgets.Syntax.Grammar.Markup
import JsxWidgets.Syntax.Grammar.Modules

/-!
# Reading modules

Here the rules of the grammar are joined, and a text is read as a module.
-/

namespace JsxWidgets.Syntax

open Reading

/-- The grammar down to a depth. Every rule gets the grammar of one level less, which is built when
the rule asks for it. -/
def grammar : Nat → Grammar
  | 0 =>
    { expression := fail, assignment := fail, operators := fun _ _ => fail, unary := fail,
      access := fail, construction := fail, statement := fun _ => fail, moduleItem := fail,
      pattern := fail, type := fail, markup := fun _ => fail }
  | depth + 1 =>
    -- each rule reads what it nests by the grammar one level down
    let rules : Rules := fun _ => grammar depth
    { expression := expressionRule rules
      assignment := assignmentRule rules
      operators := operatorsRule rules
      unary := unaryRule rules
      access := accessRule rules
      construction := constructionRule rules
      statement := statementRule rules
      moduleItem := moduleItemRule rules
      pattern := patternRule rules
      type := typeRule rules
      markup := markupRule rules }

/-- The depth that suffices for a text: no chain of rules is longer that passes no token. -/
def depthFor (chars : List Char) : Nat := 8 * chars.length + 64

/-- Reads the items of a module up to the end. A null character in front of an item is taken for the
end. -/
def moduleItems (g : Rules) : Reading Module :=
  iterate [] fun acc => do
    if ← atEnd? then return .done acc.reverse
    if ← eatNull then return .done acc.reverse
    let n ← (g ()).moduleItem
    return .more (n :: acc)

/-- Where the text of a module starts: a first line that names an interpreter is no part of it. -/
def Cursor.behindHashbang (c : Cursor) : Cursor :=
  match c.rest with
  | '#' :: '!' :: _ => (c.span fun x => x ≠ '\n' && x ≠ '\r' && x ≠ '\u2028' && x ≠ '\u2029').2
  | _ => c

/-- The characters of a text without a mark of the byte order in front of them. -/
def withoutMark (text : String) : List Char :=
  match text.toList with
  | '\ufeff' :: rest => rest
  | chars => chars

/-- Whether a fault is one in a file of the given language. Some numbers are faults in files with
types only. -/
def Dialect.hasFault (dialect : Dialect) (f : Fault) : Bool :=
  dialect.types || f.kind ≠ .untypedOctal

/-- **Reading a text as a module.** If the text is readable, the result is its items in order and
the faults in the order in which they were noticed. -/
def Module.read? (dialect : Dialect) (chars : List Char) : Option (Module × List Fault) :=
  let start : Cursor := ⟨chars, 1⟩
  let state : ReadState :=
    { token := start.behindHashbang.token, faults := [], scope := {}, dialect := dialect }
  match moduleItems (fun _ => grammar (depthFor chars)) state with
  | .ok items s => some (items, s.allFaults.reverse.filter dialect.hasFault)
  | .error _ _ => none

/-- The language of a file, which the end of its path tells. -/
def Dialect.ofPath (path : String) : Dialect :=
  if Text.endsWith ".tsx" path then ⟨true, true⟩
  else if Text.endsWith ".ts" path || Text.endsWith ".mts" path then ⟨false, true⟩
  else ⟨true, false⟩

end JsxWidgets.Syntax
