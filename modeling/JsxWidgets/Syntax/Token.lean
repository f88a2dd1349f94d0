import JsxWidgets.Syntax.Fault

/-!
# Tokens

A token is what a reader of the grammar sees of the text: its kind, its place, whether a line break
stands in front of it, and where the text goes on behind it. It also keeps where its characters
start, for they may have to be read again under other rules: a slash may open a regular expression,
an angle bracket markup.
-/

namespace JsxWidgets.Syntax

/-- A position in a text: the characters from there on, and their place. -/
structure Cursor where
  /-- The characters that are left. -/
  rest : List Char
  /-- The place of the first of them. -/
  place : Place
  deriving Inhabited

/-- Moves a cursor over the first character. -/
def Cursor.step (c : Cursor) : Cursor :=
  match c.rest with
  | [] => c
  | x :: xs => ⟨xs, c.place + x.utf8Size⟩

/-- Moves a cursor over a number of characters. -/
def Cursor.skip : Nat → Cursor → Cursor
  | 0, c => c
  | n + 1, c => skip n c.step

/-- Moves a cursor over characters as long as they satisfy a condition; gives those characters. -/
def Cursor.span (p : Char → Bool) (c : Cursor) : List Char × Cursor :=
  let front := c.rest.takeWhile p
  (front, c.skip front.length)

/-- Kinds of tokens. -/
inductive TokenKind where
  /-- An identifier or a word of the language. -/
  | word (text : String)
  /-- A name behind a hash sign. -/
  | hidden (text : String)
  /-- An operator or a bracket. -/
  | punct (text : String)
  /-- A quoted text. -/
  | string (value : String)
  /-- A number. -/
  | number (value : Binary64)
  /-- An integer of any size. -/
  | bigint (value : Nat)
  /-- Text between tags. -/
  | text (value : String)
  /-- The end. -/
  | eof
  /-- Characters that form no token, and why. -/
  | bad (fault : Fault)
  deriving DecidableEq, Repr, Inhabited

/-- A token. -/
structure Token where
  /-- The kind. -/
  kind : TokenKind
  /-- Whether a line break stands in front. -/
  newline : Bool
  /-- The place: that of the first character, unless a comment in the style of markup or the mark of
  a conflict stands in front, which counts as the beginning of the token. -/
  place : Place
  /-- Where the characters of the token start. -/
  start : Cursor
  /-- Where the text goes on. -/
  next : Cursor
  /-- The faults in the token and in the comments in front of it. -/
  faults : List Fault
  /-- The null characters in front. -/
  nulls : Nat
  deriving Inhabited

/-- Whether a token is a word. -/
def TokenKind.isWord : TokenKind → Bool
  | .word .. => true
  | _ => false

/-- Whether a token is a name behind a hash sign. -/
def TokenKind.isPrivate : TokenKind → Bool
  | .hidden _ => true
  | _ => false

/-- Whether a token is one of some operators or brackets. -/
def TokenKind.isPunctOf (texts : List String) : TokenKind → Bool
  | .punct p => texts.contains p
  | _ => false

end JsxWidgets.Syntax
