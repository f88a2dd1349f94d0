import JsxWidgets.Syntax.Lexer.Number

/-!
# Quoted texts, templates, regular expressions and words

The readers of everything in which characters do not stand for themselves. Escapes are the same in
strings, templates and, as far as code points go, in identifiers. The number of an escape is read
like any other number, underscores included. A number that is no code point, half of a surrogate
pair, leaves the escape in the text as it is written.
-/

namespace JsxWidgets.Syntax

/-! ### Escapes -/

/-- A number in an escape: its value, the digits as they are written, where the text goes on, and
the faults. -/
structure EscapedCode where
  /-- The value. -/
  value : Nat
  /-- The escape as it is written, without the backslash and the letter in front. -/
  written : List Char
  /-- Where the text goes on. -/
  next : Cursor
  /-- The faults. -/
  faults : List Fault

/-- A fixed number of hexadecimal digits. -/
def readHex (count : Nat) (c : Cursor) : Option EscapedCode :=
  let d := readDigitsUpTo count 16 c
  if d.digits.length = count then
    some ⟨valueOf 16 d.digits, c.rest.take count, d.next, d.faults⟩
  else none

/-- A code point behind the letter `u`: four digits, or digits in braces. -/
def readCodePoint (c : Cursor) : Option EscapedCode :=
  match c.rest with
  | '\x7b' :: _ =>
    let d := readDigits 16 c.step
    match d.next.rest with
    | '\x7d' :: _ =>
      let value := valueOf 16 d.digits
      if d.digits.isEmpty || 0x10FFFF < value then none
      else
        -- at most six characters of the source are kept for the raw text
        let inside := (c.step.rest.take 6).takeWhile (· ≠ '\x7d')
        some ⟨value, '\x7b' :: inside ++ ['\x7d'], d.next.step, d.faults⟩
    | _ => none
  | _ => readHex 4 c

/-- The characters of a code point behind the letter `u`. -/
def EscapedCode.chars (code : EscapedCode) : List Char :=
  match Text.charOf? code.value with
  | some x => [x]
  | none => '\\' :: 'u' :: code.written

/-- An octal escape: up to three digits, as long as the value is below 256. -/
def readOctal (c : Cursor) : List Char × Cursor :=
  let ds := (c.rest.take 3).takeWhile fun x => '0' ≤ x && x < '8'
  let ds := if valueOf 8 ds < 256 then ds else ds.take 2
  ([Char.ofNat (valueOf 8 ds)], c.skip ds.length)

/-- An escape. -/
inductive Escape where
  /-- The characters that it stands for. -/
  | chars (cs : List Char) (next : Cursor) (faults : List Fault)
  /-- It is malformed. -/
  | malformed (next : Cursor)

/-- Reads an escape; the cursor stands at the backslash. -/
def readEscape (inTemplate : Bool) (c : Cursor) : Escape :=
  let body := c.step
  let one (x : Char) : Escape := .chars [x] body.step []
  match body.rest with
  | [] => .malformed body
  | 'n' :: _ => one '\n'
  | 'r' :: _ => one '\r'
  | 't' :: _ => one '\t'
  | 'b' :: _ => one '\x08'
  | 'v' :: _ => one '\x0b'
  | 'f' :: _ => one '\x0c'
  -- a line break behind the backslash continues the text
  | '\r' :: '\n' :: _ => .chars [] (body.skip 2) []
  | 'x' :: _ =>
    match readHex 2 body.step with
    | some code => .chars code.chars code.next code.faults
    | none => .malformed body.step
  | 'u' :: _ =>
    match readCodePoint body.step with
    | some code => .chars code.chars code.next code.faults
    | none => .malformed body.step
  | x :: rest =>
    if isLineBreak x then .chars [] body.step []
    else if x = '0' && !(rest.head?.any fun d => '0' ≤ d && d < '8') then
      .chars ['\x00'] body.step []
    else if '0' ≤ x && x < '8' then
      if inTemplate then .malformed body.step
      else
        let (cs, next) := readOctal body
        .chars cs next [⟨.legacyOctal, c.place⟩]
    else one x

/-! ### Strings -/

/-- Reads a quoted text behind its opening quote, which stands at the given place. At the end of the
line the text ends, closed or not. -/
def readStringBody (quote : Char) (opening : Place) : Nat → Cursor → List Char → List Fault → Lexeme
  | 0, c, _, _ => .bad .openString opening c
  | fuel + 1, c, acc, faults =>
    let unclosed : Lexeme :=
      { kind := .string (String.ofList acc.reverse), next := c,
        faults := faults ++ [⟨.openString, opening⟩] }
    match c.rest with
    | [] => unclosed
    | x :: _ =>
      if x = quote then
        { kind := .string (String.ofList acc.reverse), next := c.step, faults := faults }
      else if x = '\\' then
        match readEscape false c with
        | .chars cs next more =>
          readStringBody quote opening fuel next (cs.reverse ++ acc) (faults ++ more)
        | .malformed next => .bad .malformedEscape c.place next
      else if x = '\n' || x = '\r' then unclosed
      else readStringBody quote opening fuel c.step (x :: acc) faults

/-- Reads a quoted text; the cursor stands at the opening quote. -/
def readString (quote : Char) (c : Cursor) : Lexeme :=
  readStringBody quote c.place (c.rest.length + 1) c.step [] []

/-! ### Templates -/

/-- A piece of a template, whether a substitution follows it, and where the text goes on. -/
structure TemplatePiece where
  /-- The piece. -/
  quasi : Quasi
  /-- Whether it ends with the opening of a substitution. -/
  opensHole : Bool
  /-- Where the text goes on. -/
  next : Cursor

/-- Reads a piece of a template, behind the character that opens it. -/
def readPieceBody : Nat → Cursor → Option (List Char) → List Char → Option TemplatePiece
  | 0, _, _, _ => none
  | fuel + 1, c, cooked, raw =>
    let quasi : Quasi := ⟨cooked.map fun cs => String.ofList cs.reverse, String.ofList raw.reverse⟩
    match c.rest with
    | [] => none
    | '\x60' :: _ => some ⟨quasi, false, c.step⟩
    | '$' :: '\x7b' :: _ => some ⟨quasi, true, c.skip 2⟩
    | '\\' :: _ =>
      let (chars, next) :=
        match readEscape true c with
        | .chars cs next _ => (some cs, next)
        | .malformed next => (none, next)
      let written := c.rest.take (c.rest.length - next.rest.length)
      let cooked := cooked.bind fun acc => chars.map fun cs => cs.reverse ++ acc
      readPieceBody fuel next cooked (written.reverse ++ raw)
    | '\r' :: '\n' :: _ =>
      readPieceBody fuel (c.skip 2) (cooked.map ('\n' :: ·)) ('\n' :: '\r' :: raw)
    | x :: _ =>
      let shown := if x = '\r' then '\n' else x
      readPieceBody fuel c.step (cooked.map (shown :: ·)) (x :: raw)

/-- Reads a piece of a template, behind the character that opens it. -/
def readPiece (c : Cursor) : Option TemplatePiece :=
  readPieceBody (c.rest.length + 1) c (some []) []

/-! ### Words -/

/-- The words of the language that an escape must not hide. -/
def unescapableWords : List String :=
  ["await", "break", "case", "catch", "class", "const", "continue", "debugger", "default", "delete",
   "do", "else", "enum", "export", "extends", "false", "finally", "for", "function", "if",
   "implements", "import", "in", "instanceof", "interface", "let", "new", "null", "package",
   "private", "protected", "public", "return", "super", "switch", "this", "throw", "true", "try",
   "typeof", "var", "void", "while", "with", "yield"]

/-- A word as it has been read. -/
structure SpelledWord where
  /-- The characters. -/
  chars : List Char
  /-- Whether one of them is written as an escape. -/
  escaped : Bool
  /-- Where the text goes on. -/
  next : Cursor
  /-- The faults. -/
  faults : List Fault

/-- Reads the characters of a word, of which the last one read comes first. A character that does
not fit ends the word, unless it is written as an escape; then it is part of the word, but a
fault. -/
def readWordBody : Nat → SpelledWord → Option SpelledWord
  | 0, w => some w
  | fuel + 1, w =>
    match w.next.rest with
    | '\\' :: 'u' :: _ =>
      match readCodePoint (w.next.skip 2) with
      | some code =>
        let fits := (Text.charOf? code.value).any Text.isIdentifierPart
        let stray : List Fault := if fits then [] else [⟨.foreignCharacter, w.next.place⟩]
        readWordBody fuel ⟨code.chars.reverse ++ w.chars, true, code.next,
          w.faults ++ code.faults ++ stray⟩
      | none => none
    | '\\' :: _ => none
    | x :: _ =>
      if Text.isIdentifierPart x then
        readWordBody fuel { w with chars := x :: w.chars, next := w.next.step }
      else some w
    | [] => some w

/-- Reads a word, or nothing if an escape in it is malformed. -/
def spellWord? (c : Cursor) : Option SpelledWord :=
  (readWordBody (c.rest.length + 1) ⟨[], false, c, []⟩).map fun w =>
    { w with chars := w.chars.reverse }

/-- Reads a word; the cursor stands at a character that can start one, or at a backslash. -/
def readWord (c : Cursor) : Lexeme :=
  match spellWord? c with
  | some w =>
    let text := String.ofList w.chars
    if w.escaped && unescapableWords.contains text then .bad .escapedWord c.place w.next
    else { kind := .word text, next := w.next, faults := w.faults }
  | none => .bad .malformedEscape c.place c.step

/-! ### Regular expressions -/

/-- What is found when a regular expression is read. -/
inductive RegexReading where
  /-- Its pattern and its flags. -/
  | closed (pattern : String) (flags : SpelledWord)
  /-- It is not closed on its line, or its flags cannot be read; what follows starts at the
  cursor. -/
  | unreadable (next : Cursor)

/-- Reads the pattern of a regular expression behind its opening slash, up to the closing slash or
the end of the line; the last component says whether it is closed. A slash in brackets does not
close it. -/
def readRegexBody : Nat → Cursor → Bool → List Char → List Char × Cursor × Bool
  | 0, c, _, acc => (acc.reverse, c, false)
  | fuel + 1, c, inClass, acc =>
    match c.rest with
    | [] => (acc.reverse, c, false)
    | x :: more =>
      if isLineBreak x then (acc.reverse, c, false)
      else if x = '/' && !inClass then (acc.reverse, c.step, true)
      else if x = '\\' then
        match more with
        | [] => (acc.reverse, c.step, false)
        | y :: _ =>
          if isLineBreak y then (acc.reverse, c.step, false)
          else readRegexBody fuel (c.skip 2) inClass (y :: '\\' :: acc)
      else
        let inClass := if x = '[' then true else if x = ']' then false else inClass
        readRegexBody fuel c.step inClass (x :: acc)

/-- Reads a regular expression; the cursor stands at the opening slash. The flags are a word that
may hold escapes but does not start with one. -/
def readRegex (c : Cursor) : RegexReading :=
  let (pattern, next, closed) := readRegexBody (c.rest.length + 1) c.step false []
  let flags :=
    if next.rest.head?.any Text.isIdentifierStart then spellWord? next
    else some ⟨[], false, next, []⟩
  match closed, flags with
  | true, some flags => .closed (String.ofList pattern) flags
  | _, _ => .unreadable next

end JsxWidgets.Syntax
