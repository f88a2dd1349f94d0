import JsxWidgets.Text.Width
import JsxWidgets.Syntax.Node

/-!
# Locations

A place is a byte offset. For a reader it is told as a line and a column too. Lines end at a line
feed, at a carriage return, or at both together; the column counts the display cells in front of the
place.
-/

namespace JsxWidgets.Syntax

/-- Where something stands in a text. -/
structure Location where
  /-- The line, counted from one. -/
  line : Nat
  /-- The cells in front of the place on its line. -/
  column : Nat
  /-- The byte offset, counted from one. -/
  offset : Nat
  deriving DecidableEq, Repr, Inhabited

/-- The location of what has no place. -/
def Location.nowhere : Location := ⟨0, 0, 0⟩

/-- Goes through characters from a line and column on, until a number of bytes is passed. -/
def Location.walk (offset : Nat) : List Char → Nat → Nat → Nat → Location
  | [], _, line, column => ⟨line, column, offset⟩
  | c :: rest, bytes, line, column =>
    if bytes < c.utf8Size then ⟨line, column, offset⟩
    else
      let ends := c = '\n' || (c = '\r' && rest.head? ≠ some '\n')
      if ends then walk offset rest (bytes - c.utf8Size) (line + 1) 0
      else walk offset rest (bytes - c.utf8Size) line (column + Text.advance c)

/-- The location of a place in a text. -/
def Location.ofPlace (chars : List Char) (place : Place) : Location :=
  if place = 0 then nowhere else walk place chars (place - 1) 1 0

/-- The location of a place in a text that is not at hand: only the offset is known. -/
def Location.ofPlaceOnly (place : Place) : Location := ⟨0, 0, place⟩

/-- Tells places as locations. -/
abbrev Locator := Place → Location

end JsxWidgets.Syntax
