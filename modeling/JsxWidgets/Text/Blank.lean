/-!
# Blank characters and words

Text between tags, class lists and type texts are all cut at blanks. A blank is a character with the
Unicode property White_Space; the zero-width space and the byte order mark have no such property.

`words` cuts a text into its maximal runs without a blank, `normalize` joins them again with single
spaces: the canonical form of a text whose line breaks and indentation carry no meaning.
-/

namespace JsxWidgets.Text

/-- The Unicode property White_Space. -/
def isBlank (c : Char) : Bool :=
  let n := c.toNat
  (0x9 ≤ n && n ≤ 0xD) || n = 0x20 || n = 0x85 || n = 0xA0 || n = 0x1680
    || (0x2000 ≤ n && n ≤ 0x200A) || n = 0x2028 || n = 0x2029 || n = 0x202F || n = 0x205F
    || n = 0x3000

/-- The maximal runs without a blank; `run` is the run being read, last character first. -/
def runs : List Char → List Char → List (List Char)
  | [], [] => []
  | [], run => [run.reverse]
  | c :: rest, run =>
    if isBlank c then
      match run with
      | [] => runs rest []
      | _ => run.reverse :: runs rest []
    else runs rest (c :: run)

/-- The words of a text, in order. -/
def words (s : String) : List String := (runs s.toList []).map String.ofList

/-- The words of a text joined by single spaces. -/
def normalize (s : String) : String := " ".intercalate (words s)

/-- Whether a text consists of blanks only. -/
def isAllBlank (s : String) : Bool := s.toList.all isBlank

/-- A text without the blanks at its two ends. -/
def trim (s : String) : String :=
  String.ofList (((s.toList.dropWhile isBlank).reverse.dropWhile isBlank).reverse)

end JsxWidgets.Text
