/-!
# Reading JSON

A reader takes a value off the front of a text, or it says why it cannot. Readers go from left to
right and stop at the first problem, so a value of the wrong type is reported even if the text
behind it is broken.

## Kinds of problems

A text may end too early, it may break the grammar, or it may hold a value that is not wanted. The
first two concern the text alone; the third depends on who reads it.
-/

namespace JsxWidgets.Json

/-- Why a value cannot be read. -/
inductive Problem where
  /-- The text ends too early. -/
  | unfinished
  /-- The text breaks the grammar. -/
  | malformed
  /-- The value has the wrong type, or lies out of range. -/
  | unfitting
  deriving DecidableEq, Repr, Inhabited

/-- Readers of values. -/
abbrev Reader (α : Type) := StateT (List Char) (Except Problem) α

/-- The characters that may stand between tokens. -/
def isBlank (c : Char) : Bool := c = ' ' || c = '\t' || c = '\n' || c = '\r'

/-- Passes blanks; what stands behind them, if anything does, is shown. -/
def next? : Reader (Option Char) := fun cs =>
  let rest := cs.dropWhile isBlank
  .ok (rest.head?, rest)

/-- Passes blanks and shows the character behind them, which has to be there. -/
def front : Reader Char := do
  match ← next? with
  | some c => return c
  | none => throw .unfinished

/-- Passes a character, which has to be there. -/
def take : Reader Char := fun cs =>
  match cs with
  | [] => .error .unfinished
  | c :: rest => .ok (c, rest)

/-- Passes the character that stands next, if there is one. -/
def pass : Reader Unit := modify fun cs => cs.drop 1

/-- Passes the rest of a word. -/
def expect : List Char → Reader Unit
  | [] => return ()
  | c :: cs => do
    let d ← take
    unless d = c do throw .malformed
    expect cs

/-- Passes blanks and a sign, which has to be there. -/
def sign (c : Char) : Reader Unit := do
  let d ← front
  unless d = c do throw .malformed
  pass

/-- Reads a whole text, behind which only blanks may stand. -/
def Reader.readAll {α : Type} (r : Reader α) (text : String) : Except Problem α := do
  let (value, rest) ← r.run text.toList
  if rest.all isBlank then return value else throw .malformed

end JsxWidgets.Json
