import JsxWidgets.Syntax.Lexer.Quoted

/-!
# Reading tokens

The grammar decides how the next characters are read. There are three ways.

* `Cursor.token` reads a token of the language. A slash is an operator; whoever expects an
  expression there reads it again as the start of a regular expression.
* `Cursor.tagToken` reads inside a tag. Names may hold dashes, quoted texts know no escapes but
  entities, and an angle bracket always stands alone.
* `Cursor.childToken` reads between tags: text up to the next tag or brace.
-/

namespace JsxWidgets.Syntax

/-- The operators and brackets, longer ones first. -/
def punctuators : List String :=
  [">>>=", "...", "===", "!==", "**=", "<<=", ">>=", ">>>", "&&=", "||=", "??=", "=>", "==", "!=",
   "<=", ">=", "&&", "||", "??", "?.", "++", "--", "+=", "-=", "*=", "/=", "%=", "&=", "|=", "^=",
   "<<", ">>", "**", "\x7b", "\x7d", "(", ")", "[", "]", ";", ",", "<", ">", "+", "-", "*", "/",
   "%", "&", "|", "^", "!", "~", "?", ":", "=", ".", "@", "`"]

/-- Reads a character that starts no token. -/
def readStray (c : Cursor) : Lexeme :=
  match c.rest with
  | [] => { kind := .eof, next := c }
  | x :: _ => .bad (.strayCharacter x) c.place c.step

/-- Reads an operator or a bracket. -/
def readPunct (c : Cursor) : Lexeme :=
  match punctuators.find? fun p => beginsWith p.toList c.rest with
  | some p =>
    -- A question mark with a point and a digit behind it is an operator in front of a number.
    if p = "?." && ((c.rest.drop 2).head?.any Text.isAsciiDigit) then
      { kind := .punct "?", next := c.step }
    else { kind := .punct p, next := c.skip p.length }
  | none => readStray c

/-- Reads the characters of a token; there is one. -/
def readLexeme (c : Cursor) : Lexeme :=
  match c.rest with
  | [] => { kind := .eof, next := c }
  | '\x27' :: _ => readString '\x27' c
  | '\x22' :: _ => readString '\x22' c
  | '#' :: more =>
    if more.head?.any fun x => Text.isIdentifierStart x || x = '\\' then
      let l := readWord c.step
      match l.kind with
      | .word text => { kind := .hidden text, next := l.next, faults := l.faults }
      | _ => l
    else { kind := .punct "#", next := c.step }
  -- a point in front of a digit starts a number
  | '.' :: x :: _ => if Text.isAsciiDigit x then readNumber c else readPunct c
  | '\\' :: _ => readWord c
  | x :: _ =>
    if Text.isAsciiDigit x then readNumber c
    else if Text.isIdentifierStart x then readWord c
    else readPunct c

/-- A token behind a gap. -/
def Gap.token (g : Gap) (read : Cursor → Lexeme) : Token :=
  let l := read g.cursor
  { kind := l.kind, newline := g.newline, place := g.mark.getD g.cursor.place, start := g.cursor,
    next := l.next, faults := g.faults ++ l.faults, nulls := g.nulls }

/-- The next token of the language. -/
def Cursor.token (c : Cursor) : Token := c.gap.token readLexeme

/-- Reads a quoted value of an attribute behind its opening quote. A line break in two characters is
followed by another one. -/
def readAttributeBody (quote : Char) : Nat → Cursor → List Char → Lexeme
  | 0, c, _ => .bad .openString c.place c
  | fuel + 1, c, acc =>
    match c.rest with
    | [] => .bad .openString c.place c
    | '&' :: more =>
      match Text.readEntity? more with
      | some (x, rest) =>
        readAttributeBody quote fuel (c.skip (c.rest.length - rest.length)) (x :: acc)
      | none => readAttributeBody quote fuel c.step ('&' :: acc)
    -- a line end within a quoted value is kept with a line feed added
    | '\r' :: '\n' :: _ => readAttributeBody quote fuel (c.skip 2) ('\n' :: '\n' :: '\r' :: acc)
    | x :: _ =>
      if x = quote then { kind := .string (String.ofList acc.reverse), next := c.step }
      else readAttributeBody quote fuel c.step (x :: acc)

/-- Reads the characters of a token inside a tag. -/
def readTagLexeme (c : Cursor) : Lexeme :=
  match c.rest with
  | [] => { kind := .eof, next := c }
  | x :: _ =>
    if x = '\x27' || x = '\x22' then readAttributeBody x (c.rest.length + 1) c.step []
    else if Text.isIdentifierStart x then
      let (name, next) := c.span fun y => Text.isIdentifierPart y || y = '-'
      { kind := .word (String.ofList name), next := next }
    else if x = '<' || x = '>' || x = '/' || x = '=' || x = ':' || x = '.' || x = '\x7b' then
      { kind := .punct (String.singleton x), next := c.step }
    else readStray c

/-- The next token inside a tag. -/
def Cursor.tagToken (c : Cursor) : Token := c.gap.token readTagLexeme

/-- Reads text between tags. A bare closing bracket or brace belongs to the text but is a fault; a
line break in two characters counts as one. -/
def readChildText : Nat → Cursor → List Char → List Fault → Lexeme
  | 0, c, _, _ => { kind := .eof, next := c }
  | fuel + 1, c, acc, faults =>
    let finish : Lexeme :=
      { kind := .text (String.ofList acc.reverse), next := c, faults := faults }
    match c.rest with
    | [] => { kind := .eof, next := c }
    | '<' :: _ => finish
    | '\x7b' :: _ => finish
    -- a stray bracket is reported and kept as text
    | '>' :: _ => readChildText fuel c.step ('>' :: acc) (faults ++ [⟨.bareAngle, c.place⟩])
    | '\x7d' :: _ => readChildText fuel c.step ('\x7d' :: acc) (faults ++ [⟨.bareBrace, c.place⟩])
    | '&' :: more =>
      match Text.readEntity? more with
      | some (x, rest) =>
        readChildText fuel (c.skip (c.rest.length - rest.length)) (x :: acc) faults
      | none => readChildText fuel c.step ('&' :: acc) faults
    | '\r' :: '\n' :: _ => readChildText fuel (c.skip 2) ('\n' :: acc) faults
    | x :: _ => readChildText fuel c.step (x :: acc) faults

/-- The next token between tags: an opening bracket or brace, or text. -/
def Cursor.childToken (c : Cursor) : Token :=
  let l : Lexeme :=
    match c.rest with
    | '<' :: _ => { kind := .punct "<", next := c.step }
    | '\x7b' :: _ => { kind := .punct "\x7b", next := c.step }
    | _ => readChildText (c.rest.length + 1) c [] []
  { kind := l.kind, newline := false, place := c.place, start := c, next := l.next,
    faults := l.faults, nulls := 0 }

end JsxWidgets.Syntax
