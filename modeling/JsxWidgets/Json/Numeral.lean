import JsxWidgets.Json.Basic
import JsxWidgets.Literal
import JsxWidgets.Text.Entity
import JsxWidgets.Text.Identifier

/-!
# Numerals of JSON

A numeral has no zeros in front of its whole part; a fraction and an exponent may follow. It denotes
an integer if it has neither and fits into 64 bits, otherwise the nearest double. A numeral that is
too large for a double is malformed.
-/

namespace JsxWidgets.Json

/-- A numeral. -/
structure Numeral where
  /-- Whether a minus sign stands in front. -/
  negative : Bool
  /-- The digits, read as a number. -/
  digits : Nat
  /-- The power of ten of the last digit. -/
  exponent : Int
  /-- Whether there is neither a fraction nor an exponent. -/
  isWhole : Bool
  deriving DecidableEq, Repr, Inhabited

namespace Numeral

/-- The smallest and the largest integer that are kept as integers. -/
def integerRange : Int × Int := (-9223372036854775808, 18446744073709551615)

/-- The integer that a numeral denotes. A negative zero is none. -/
def toInt? (n : Numeral) : Option Int :=
  let value : Int := if n.negative then -(n.digits : Int) else n.digits
  if n.isWhole && integerRange.1 ≤ value && value ≤ integerRange.2
    && !(n.negative && n.digits = 0) then some value
  else none

/-- The value of a numeral. -/
def value? (n : Numeral) : Option Literal :=
  match n.toInt? with
  | some i => some (.int i)
  | none =>
    match Binary64.ofDecimal n.digits n.exponent with
    | .infinite => none
    | v => some (.real n.negative v)

end Numeral

/-- Passes digits. -/
def digits : Reader (List Char) := fun cs =>
  .ok (cs.takeWhile Text.isAsciiDigit, cs.dropWhile Text.isAsciiDigit)

/-- Passes digits, of which there has to be one; `atEnd` is the problem if the text ends in front of
it. -/
def someDigits (atEnd : Problem) : Reader (List Char) := do
  let ds ← digits
  if ds.isEmpty then
    throw (if (← get).isEmpty then atEnd else .malformed)
  return ds

/-- The whole part of a numeral. -/
def wholePart (atEnd : Problem) : Reader (List Char) := do
  let ds ← someDigits atEnd
  match ds with
  | '0' :: _ :: _ => throw .malformed
  | _ => return ds

/-- The fraction of a numeral, if there is one. -/
def fraction? (atEnd : Problem) : Reader (Option (List Char)) := do
  match (← get).head? with
  | some '.' => do
    pass
    return some (← someDigits atEnd)
  | _ => return none

/-- The size of an exponent. More than six digits say no more than six nines. -/
def exponentSize (ds : List Char) : Nat :=
  let ds := ds.dropWhile (· = '0')
  if ds.length > 6 then 999999 else (Text.numeral? 10 ds).getD 0

/-- The exponent of a numeral, if there is one. -/
def exponent? (atEnd : Problem) : Reader (Option Int) := do
  match (← get).head? with
  | some c =>
    if c = 'e' || c = 'E' then
      pass
      let mark := (← get).head?
      if mark = some '+' || mark = some '-' then pass
      let size := exponentSize (← someDigits atEnd)
      return some (if mark = some '-' then -(size : Int) else size)
    else return none
  | none => return none

/-- Passes a numeral. -/
def numeral (atEnd : Problem) : Reader Numeral := do
  let negative := (← get).head? = some '-'
  if negative then pass
  let whole ← wholePart atEnd
  let places ← fraction? atEnd
  let power ← exponent? atEnd
  let fraction := places.getD []
  return {
    negative := negative
    digits := (Text.numeral? 10 (whole ++ fraction)).getD 0
    exponent := power.getD 0 - fraction.length
    isWhole := places.isNone && power.isNone }

/-- Reads a number. -/
def number : Reader Literal := do
  match (← numeral .unfinished).value? with
  | some v => return v
  | none => throw .malformed

/-- Whether a number starts with a character. -/
def startsNumber (c : Char) : Bool := c = '-' || Text.isAsciiDigit c

end JsxWidgets.Json
