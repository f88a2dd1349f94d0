import JsxWidgets.Json.Numeral
import JsxWidgets.Json.Quoted

/-!
# Lists and objects of JSON

Readers for values of a wanted type. A value of another type is unfitting; a text, a number or a
word is read to its end before that is said, and a list or an object is not.

`skip` passes a value that nobody wants.
-/

namespace JsxWidgets.Json

/-- Refuses the value that starts with the given character, which stands next. -/
def refuse {α : Type} (c : Char) : Reader α := do
  if c = 'n' then expect ['n', 'u', 'l', 'l']
  else if c = 't' then expect ['t', 'r', 'u', 'e']
  else if c = 'f' then expect ['f', 'a', 'l', 's', 'e']
  else if c = '\x22' then discard quoted
  else if startsNumber c then discard number
  else if c ≠ '[' ∧ c ≠ '\x7b' then throw .malformed
  throw .unfitting

/-- Reads a text. -/
def text : Reader String := do
  let c ← front
  if c = '\x22' then quoted else refuse c

/-- Reads an integer that is not negative. -/
def natural : Reader Nat := do
  let c ← front
  if startsNumber c then
    match ← number with
    | .int (.ofNat n) => return n
    | _ => throw .unfitting
  else refuse c

/-- Passes the rest of a list behind an item, item by item. -/
def moreItems {α : Type} (item : Reader α) : Nat → Reader (List α)
  | 0 => throw .unfinished
  | fuel + 1 => do
    let c ← front
    if c = ']' then
      pass
      return []
    unless c = ',' do throw .malformed
    pass
    if (← front) = ']' then throw .malformed
    let first ← item
    return first :: (← moreItems item fuel)

/-- Reads a list of some items. -/
def list {α : Type} (item : Reader α) : Reader (List α) := do
  let c ← front
  if c = '[' then
    pass
    if (← front) = ']' then
      pass
      return []
    let first ← item
    return first :: (← moreItems item ((← get).length + 1))
  else refuse c

/-- Passes the name of a field and hands it on; the colon and the value are left to the reader of
the field, which knows what was read before. -/
def field {σ : Type} (paired : Bool) (entry : σ → String → Reader σ) (s : σ) : Reader σ := do
  let c ← front
  unless c = '\x22' do throw .malformed
  pass
  entry s (String.ofList (← quotedRest paired))

/-- Passes the rest of an object behind a field, field by field. -/
def moreFields {σ : Type} (paired : Bool) (entry : σ → String → Reader σ) : Nat → σ → Reader σ
  | 0, _ => throw .unfinished
  | fuel + 1, s => do
    let c ← front
    if c = '\x7d' then
      pass
      return s
    unless c = ',' do throw .malformed
    pass
    let s ← field paired entry s
    moreFields paired entry fuel s

/-- Passes the inside of an object behind its opening brace. -/
def fields {σ : Type} (paired : Bool) (entry : σ → String → Reader σ) (start : σ) : Reader σ := do
  if (← front) = '\x7d' then
    pass
    return start
  let s ← field paired entry start
  moreFields paired entry ((← get).length + 1) s

/-- Passes a value that is not wanted. Every level of a list or an object passes a bracket. -/
def skipNested : Nat → Reader Unit
  | 0 => throw .unfinished
  | fuel + 1 => do
    let c ← front
    if c = 'n' then expect ['n', 'u', 'l', 'l']
    else if c = 't' then expect ['t', 'r', 'u', 'e']
    else if c = 'f' then expect ['f', 'a', 'l', 's', 'e']
    else if c = '\x22' then
      pass
      discard (quotedRest false)
    else if startsNumber c then discard (numeral .malformed)
    else if c = '[' then discard (list (skipNested fuel))
    else if c = '\x7b' then
      pass
      -- the names are skipped too, so their escapes need not be paired
      fields false (fun _ _ => do sign ':'; skipNested fuel) ()
    else throw .malformed

/-- Passes a value that is not wanted. -/
def skip : Reader Unit := do skipNested ((← get).length + 1)

/-- Sets an entry of a table of texts. -/
def textEntry (table : List (String × String)) (key : String) :
    Reader (List (String × String)) := do
  sign ':'
  let value ← text
  return Text.update key (fun _ => value) table

/-- Reads an object of texts as a table in the order of its keys; of several entries with one key
the last one counts. -/
def texts : Reader (List (String × String)) := do
  let c ← front
  if c = '\x7b' then
    pass
    fields true textEntry []
  else refuse c

end JsxWidgets.Json
