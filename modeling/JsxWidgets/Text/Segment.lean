/-!
# Parts of a text

Cutting a text at separators, taking a known beginning or end off it, and finding a piece in it.
Paths such as `a.b.c`, file names and module names are read with these.
-/

namespace JsxWidgets.Text

/-- The pieces of a list between the elements that satisfy `sep`; there is always at least one. -/
def pieces (sep : Char → Bool) : List Char → List (List Char)
  | [] => [[]]
  | c :: rest =>
    if sep c then [] :: pieces sep rest
    else
      match pieces sep rest with
      | [] => [[c]]
      | p :: ps => (c :: p) :: ps

/-- The pieces of a text between separators. -/
def split (sep : Char → Bool) (s : String) : List String := (pieces sep s.toList).map String.ofList

/-- What stands in front of the first separator. -/
def firstSegment (sep : Char → Bool) (s : String) : String :=
  String.ofList (s.toList.takeWhile fun c => !sep c)

/-- What stands behind the last separator. -/
def lastSegment (sep : Char → Bool) (s : String) : String :=
  String.ofList (s.toList.reverse.takeWhile fun c => !sep c).reverse

/-- The rest of a list behind a known beginning. -/
def dropFront? : List Char → List Char → Option (List Char)
  | [], s => some s
  | _ :: _, [] => none
  | p :: ps, c :: cs => if p = c then dropFront? ps cs else none

/-- The rest of a text behind a known beginning. -/
def dropStart? (start s : String) : Option String :=
  (dropFront? start.toList s.toList).map String.ofList

/-- The part of a text in front of a known end. -/
def dropEnd? (ending s : String) : Option String :=
  (dropFront? ending.toList.reverse s.toList.reverse).map fun r => String.ofList r.reverse

/-- Whether a text begins with another. -/
def startsWith (start s : String) : Bool := (dropFront? start.toList s.toList).isSome

/-- Whether a text ends with another. -/
def endsWith (ending s : String) : Bool :=
  (dropFront? ending.toList.reverse s.toList.reverse).isSome

/-- Whether a piece occurs in a list of characters. -/
def occursIn (piece : List Char) : List Char → Bool
  | [] => piece.isEmpty
  | c :: rest => (dropFront? piece (c :: rest)).isSome || occursIn piece rest

/-- Whether a text contains another. -/
def contains (piece s : String) : Bool := occursIn piece.toList s.toList

/-- A character with the letters A to Z in lower case. -/
def lowerAscii (c : Char) : Char :=
  if 'A' ≤ c ∧ c ≤ 'Z' then Char.ofNat (c.toNat + 32) else c

/-- A text with the letters A to Z in lower case and all else unchanged. -/
def lowercaseAscii (s : String) : String := String.ofList (s.toList.map lowerAscii)

/-- The lines of a text as a writer of line comments sees them: a line ends at a line feed, a
carriage return in front of it is dropped, and an empty last line does not count. -/
def lines (s : String) : List String :=
  let ps := pieces (· = '\n') s.toList
  let ps := if ps.getLast? = some [] then ps.dropLast else ps
  -- Only a line that a line feed ended loses its carriage return.
  let ended := ps.length - (if s.toList.getLast? = some '\n' then 0 else 1)
  ps.zipIdx.map fun (p, i) =>
    String.ofList (if i < ended ∧ p.getLast? = some '\r' then p.dropLast else p)

end JsxWidgets.Text
