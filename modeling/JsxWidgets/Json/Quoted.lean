import JsxWidgets.Json.Basic
import JsxWidgets.Text.Entity

/-!
# Texts of JSON

A text stands in quotes. A backslash starts an escape; an escape in hexadecimal names a unit of
UTF-16, and two units that form a pair name one character. A unit that lacks its partner is no
character. In a text that is only passed by, nobody asks whether units have partners.
-/

namespace JsxWidgets.Json

/-- The number of bytes of the first four characters: four or more if there are four bytes at
all. -/
def reach (cs : List Char) : Nat := (cs.take 4).foldl (fun n c => n + c.utf8Size) 0

/-- Passes the four hexadecimal digits of a unit. -/
def unit : Reader Nat := do
  let cs ← get
  if reach cs < 4 then throw .unfinished
  match Text.numeral? 16 (cs.take 4) with
  | some n =>
    set (cs.drop 4)
    return n
  | none => throw .malformed

/-- Whether a unit is the first one of a pair. -/
def opensPair (n : Nat) : Bool := 0xD800 ≤ n && n ≤ 0xDBFF

/-- Whether a unit is the second one of a pair. -/
def closesPair (n : Nat) : Bool := 0xDC00 ≤ n && n ≤ 0xDFFF

/-- The character of a pair of units. -/
def ofPair (n m : Nat) : Char := Char.ofNat (0x10000 + (n - 0xD800) * 0x400 + (m - 0xDC00))

/-- Passes a unit and, if it opens a pair, the escape of the other one. -/
def codePoint : Reader Char := do
  let n ← unit
  if closesPair n then throw .malformed
  if opensPair n then
    expect ['\\', 'u']
    let m ← unit
    unless closesPair m do throw .malformed
    return ofPair n m
  return Char.ofNat n

/-- Passes an escape behind its backslash. -/
def escape (paired : Bool) : Reader (List Char) := do
  match ← take with
  | '\x22' => return ['\x22']
  | '\\' => return ['\\']
  | '/' => return ['/']
  | 'b' => return ['\x08']
  | 'f' => return ['\x0c']
  | 'n' => return ['\n']
  | 'r' => return ['\r']
  | 't' => return ['\t']
  | 'u' =>
    -- a text that is skipped may hold half of a surrogate pair
    if paired then return [← codePoint]
    else
      discard unit
      return []
  | _ => throw .malformed

/-- Passes the inside of a text and the quote behind it. Every round passes a character. -/
def inside (paired : Bool) : Nat → Reader (List Char)
  | 0 => throw .unfinished
  | fuel + 1 => do
    let c ← take
    if c = '\x22' then return []
    if c.toNat < 0x20 then throw .malformed
    let front ← if c = '\\' then escape paired else pure [c]
    return front ++ (← inside paired fuel)

/-- Passes a text behind its opening quote. -/
def quotedRest (paired : Bool) : Reader (List Char) := do
  inside paired ((← get).length + 1)

/-- Reads a text, whose opening quote stands next. -/
def quoted : Reader String := do
  pass
  return String.ofList (← quotedRest true)

end JsxWidgets.Json
