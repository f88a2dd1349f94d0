import JsxWidgets.Text.Blank
import JsxWidgets.Syntax.Token

/-!
# What stands between tokens

Blanks, line breaks and comments. A gap matters in three ways: whether it holds a line break, how
many null characters it holds, and which of its comments are faults: those in the style of markup,
the marks that are left where two versions of a text have not been merged, and one that is not
closed.
-/

namespace JsxWidgets.Syntax

/-- The characters that end a line. -/
def isLineBreak (c : Char) : Bool :=
  c = '\n' || c = '\r' || c.toNat = 0x2028 || c.toNat = 0x2029

/-- The blanks that may stand between tokens. The byte order mark is one of them. -/
def isSpace (c : Char) : Bool := Text.isBlank c || c.toNat = 0xFEFF

/-- A gap as far as it has been read. -/
structure Gap where
  /-- Where reading goes on. -/
  cursor : Cursor
  /-- Whether a line break has been met. -/
  newline : Bool
  /-- The place of the first comment that counts as the beginning of the next token. -/
  mark : Option Place := none
  /-- The null characters met. -/
  nulls : Nat := 0
  /-- The faults met. -/
  faults : List Fault := []

/-- Moves to the end of the line. -/
def Cursor.lineEnd (c : Cursor) : Cursor := (c.span fun x => !isLineBreak x).2

/-- Reads a comment behind its opening: where it ends, whether a line break is in it, and whether it
is closed at all. -/
def readComment : Nat → Cursor → Bool → Cursor × Bool × Bool
  | 0, c, newline => (c, newline, false)
  | fuel + 1, c, newline =>
    match c.rest with
    | [] => (c, newline, false)
    | '*' :: '/' :: _ => (c.skip 2, newline, true)
    | x :: _ => readComment fuel c.step (newline || isLineBreak x)

/-- Whether one list of characters begins with another. -/
def beginsWith : List Char → List Char → Bool
  | [], _ => true
  | _ :: _, [] => false
  | p :: ps, c :: cs => p == c && beginsWith ps cs

/-- The marks of a conflict between two versions of a text; they stand at the start of a line. -/
def conflictMarkers : List String := ["<<<<<<< ", ">>>>>>> ", "||||||| ", "======="]

/-- The fault of a comment that starts here and takes the rest of its line, if it is one of those
that are faults. -/
def faultyComment? (chars : List Char) (atLineStart : Bool) : Option FaultKind :=
  match chars with
  | '<' :: '!' :: '-' :: '-' :: _ => some .legacyComment
  | '-' :: '-' :: '>' :: _ =>
    -- Only at the start of a line; elsewhere these are operators.
    if atLineStart then some .legacyComment else none
  | _ =>
    if atLineStart && conflictMarkers.any (fun m => beginsWith m.toList chars) then
      some .conflictMarker
    else none

/-- Reads a gap to its end. -/
def readGap : Nat → Gap → Gap
  | 0, g => g
  | fuel + 1, g =>
    match g.cursor.rest with
    | '/' :: '/' :: _ => readGap fuel { g with cursor := g.cursor.lineEnd }
    | '/' :: '*' :: _ =>
      let (c, newline, closed) := readComment fuel (g.cursor.skip 2) g.newline
      let faults := if closed then g.faults else g.faults ++ [⟨.openComment, c.place⟩]
      readGap fuel { g with cursor := c, newline := newline, faults := faults }
    | x :: _ =>
      if isLineBreak x then readGap fuel { g with cursor := g.cursor.step, newline := true }
      else if isSpace x then readGap fuel { g with cursor := g.cursor.step }
      -- null characters are passed over, but they are counted
      else if x = '\x00' then
        readGap fuel { g with cursor := g.cursor.step, newline := false, nulls := g.nulls + 1 }
      else
        match faultyComment? g.cursor.rest g.newline with
        | some kind =>
          let place := g.cursor.place
          readGap fuel
            { g with cursor := g.cursor.lineEnd, mark := some (g.mark.getD place),
                     faults := g.faults ++ [⟨kind, place⟩] }
        | none => g
    | [] => g

/-- The gap at a cursor. The start of a text is the start of a line. -/
def Cursor.gap (c : Cursor) : Gap :=
  readGap (c.rest.length + 1) { cursor := c, newline := c.place = 1 }

end JsxWidgets.Syntax
