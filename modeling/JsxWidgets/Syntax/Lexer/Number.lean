import JsxWidgets.Syntax.Lexer.Gap
import JsxWidgets.Text.Entity
import JsxWidgets.Text.Identifier

/-!
# Numbers

Decimal numbers with fraction and exponent, integers in base two, eight and sixteen, integers of any
size with the letter `n` behind them, and the two old forms with a leading zero, which are faults.
Underscores may stand anywhere behind the first digits; one without a digit right behind it is a
fault, which is reported where its run of digits starts.
-/

namespace JsxWidgets.Syntax

/-- What reading a token gives: its kind, where the text goes on, and the faults in it. -/
structure Lexeme where
  /-- The kind. -/
  kind : TokenKind
  /-- Where the text goes on. -/
  next : Cursor
  /-- The faults. -/
  faults : List Fault := []

/-- Characters that form no token, for the given reason. -/
def Lexeme.bad (reason : FaultKind) (place : Place) (next : Cursor) : Lexeme :=
  { kind := .bad ⟨reason, place⟩, next := next }

/-- Whether a character is a digit of a base. -/
def isDigitOf (base : Nat) (c : Char) : Bool :=
  match Text.hexDigit? c with
  | some d => d < base
  | none => false

/-- The digits of a base at the front of some characters, at most the given number of them: the
digits without their separators, the number of separators that no digit follows, and the number of
characters passed. -/
def spanDigits (base : Nat) : Nat → List Char → List Char × Nat × Nat
  | 0, _ => ([], 0, 0)
  | _, [] => ([], 0, 0)
  | limit + 1, c :: cs =>
    if c = '_' then
      let (ds, strays, passed) := spanDigits base (limit + 1) cs
      (ds, if cs.head?.any (isDigitOf base) then strays else strays + 1, passed + 1)
    else if isDigitOf base c then
      let (ds, strays, passed) := spanDigits base limit cs
      (c :: ds, strays, passed + 1)
    else ([], 0, 0)

/-- A run of digits. -/
structure Digits where
  /-- The digits without their separators. -/
  digits : List Char
  /-- Where the text goes on. -/
  next : Cursor
  /-- The faults of separators without a digit behind them. -/
  faults : List Fault

/-- Reads digits of a base, at most the given number of them. -/
def readDigitsUpTo (limit base : Nat) (c : Cursor) : Digits :=
  let (ds, strays, passed) := spanDigits base limit c.rest
  { digits := ds, next := c.skip passed,
    faults := List.replicate strays ⟨.strayUnderscore, c.place⟩ }

/-- Reads digits of a base. -/
def readDigits (base : Nat) (c : Cursor) : Digits :=
  readDigitsUpTo (c.rest.length + 1) base c

/-- The number that digits spell. -/
def valueOf (base : Nat) (ds : List Char) : Nat := (Text.numeral? base ds).getD 0

/-- A number must not run into a name. -/
def closeNumber (l : Lexeme) : Lexeme :=
  match l.next.rest with
  | x :: _ =>
    if Text.isIdentifierStart x then .bad .numberBeforeName l.next.place l.next else l
  | [] => l

/-- An integer in another base, behind the two characters that announce it. -/
def readRadix (base : Nat) (c : Cursor) : Lexeme :=
  let d := readDigits base c
  if d.digits.isEmpty then .bad .missingDigits c.place d.next
  else
    let value := valueOf base d.digits
    match d.next.rest with
    | 'n' :: _ => { kind := .bigint value, next := d.next.step, faults := d.faults }
    | _ => closeNumber { kind := .number (.ofNat value), next := d.next, faults := d.faults }

/-- The exponent that digits spell. One of more than six digits says no more than one of six
nines. -/
def exponentOf (negative : Bool) (d : Digits) : Int :=
  let significant := d.digits.dropWhile (· = '0')
  let n := if significant.length > 6 then 999999 else valueOf 10 significant
  if negative then -(n : Int) else n

/-- Reads an exponent with its digits; where no letter announces one it is zero. -/
def readExponent (c : Cursor) : Int × Digits :=
  let read (negative : Bool) (c : Cursor) : Int × Digits :=
    let d := readDigits 10 c
    (exponentOf negative d, d)
  let none : Int × Digits := (0, ⟨['0'], c, []⟩)
  match c.rest with
  | x :: '+' :: _ => if x = 'e' || x = 'E' then read false (c.skip 2) else none
  | x :: '-' :: _ => if x = 'e' || x = 'E' then read true (c.skip 2) else none
  | x :: _ => if x = 'e' || x = 'E' then read false c.step else none
  | [] => none

/-- Reads the fraction and the exponent of a decimal number whose whole part has been read. -/
def readFraction (whole : List Char) (faults : List Fault) (c : Cursor) : Lexeme :=
  let fraction : Digits :=
    match c.rest with
    | '.' :: _ => readDigits 10 c.step
    | _ => ⟨[], c, []⟩
  let (e, exponent) := readExponent fraction.next
  if exponent.digits.isEmpty then .bad .missingDigits exponent.next.place exponent.next
  else
    let ds := fraction.digits
    let value := Binary64.ofDecimal (valueOf 10 (whole ++ ds)) (e - ds.length)
    closeNumber { kind := .number value, next := exponent.next,
                  faults := faults ++ fraction.faults ++ exponent.faults }

/-- Reads a number; the cursor stands at a digit, or at a point with a digit behind it. A leading
zero with more behind it announces an octal number, unless one of the digits does not fit. -/
def readNumber (c : Cursor) : Lexeme :=
  let decimal : Lexeme :=
    let d := readDigits 10 c
    let octal (value : Nat) : Lexeme :=
      closeNumber { kind := .number (.ofNat value), next := d.next,
                    faults := d.faults ++ [⟨.untypedOctal, c.place⟩, ⟨.legacyOctal, c.place⟩] }
    match d.next.rest, d.digits with
    | 'n' :: _, ds =>
      if ds.isEmpty then readFraction ds d.faults d.next
      else { kind := .bigint (valueOf 10 ds), next := d.next.step, faults := d.faults }
    -- a leading zero makes an octal number, unless a digit is too large for it
    | _, '0' :: ds =>
      if ds.all (· = '0') then
        if d.next.place = c.place + 1 then readFraction ['0'] d.faults d.next else octal 0
      else if ds.all (fun x => x < '8') then octal (valueOf 8 ds)
      else readFraction ds (d.faults ++ [⟨.legacyDecimal, c.place⟩]) d.next
    | _, ds => readFraction ds d.faults d.next
  match c.rest with
  | '0' :: x :: _ =>
    if x = 'x' || x = 'X' then readRadix 16 (c.skip 2)
    else if x = 'o' || x = 'O' then readRadix 8 (c.skip 2)
    else if x = 'b' || x = 'B' then readRadix 2 (c.skip 2)
    else decimal
  | _ => decimal

end JsxWidgets.Syntax
