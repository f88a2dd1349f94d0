/-!
# Non-negative binary floating-point numbers

A numeric literal denotes the double nearest to what it spells. The value is kept exactly, as a
mantissa times a power of two, so that every later question about it (is it an integer, which
digits name it) is a question about natural numbers.

Only non-negative values occur: a sign in front of a literal is an operator of its own.

## Rounding

`Binary64.ofRatio` rounds a quotient of natural numbers to the nearest value of the format, a tie
going to the even mantissa. Everything that reads a numeral ends there.
-/

namespace JsxWidgets

/-- A non-negative double: `mantissa * 2 ^ exponent`, or infinity. -/
inductive Binary64 where
  /-- The value `mantissa * 2 ^ exponent`. -/
  | finite (mantissa : Nat) (exponent : Int)
  /-- What a numeral beyond the largest finite value denotes. -/
  | infinite
  deriving DecidableEq, Repr, Inhabited

namespace Binary64

/-- The number of bits of a mantissa. -/
def precision : Nat := 53

/-- The exponent of the smallest positive value. -/
def minExponent : Int := -1074

/-- The largest exponent that a mantissa of full width may have. -/
def maxExponent : Int := 971

/-- Zero, whose exponent is the smallest one. -/
def zero : Binary64 := .finite 0 minExponent

/-- The quotient `num / den` rounded to the nearest natural number, a tie going to the even one. -/
def roundQuotient (num den : Nat) : Nat :=
  let q := num / den
  let twice := 2 * (num % den)
  if twice < den then q
  else if den < twice then q + 1
  else if q % 2 = 0 then q else q + 1

/-- The quotient `num / (den * 2 ^ e)`, rounded. -/
def scaledQuotient (num den : Nat) (e : Int) : Nat :=
  match e with
  | .ofNat k => roundQuotient num (den * Nat.pow 2 k)
  | .negSucc k => roundQuotient (num * Nat.pow 2 (k + 1)) den

/-- The nearest double to `num / den`.

The exponent is first guessed from the bit lengths, so that the quotient has `precision` bits or
one more; rounding up to the next power of two is put right afterwards. -/
def ofRatio (num den : Nat) : Binary64 :=
  if num = 0 then zero
  else
    let guess : Int := (num.log2 : Int) - (den.log2 : Int) - (precision : Int)
    let fits (e : Int) : Bool := scaledQuotient num den e < Nat.pow 2 precision
    -- The guess is at most two below the exponent that is wanted.
    let e := if fits guess then guess else if fits (guess + 1) then guess + 1 else guess + 2
    let e := max e minExponent
    if e > maxExponent then .infinite else .finite (scaledQuotient num den e) e

/-- The nearest double to a natural number. -/
def ofNat (n : Nat) : Binary64 := ofRatio n 1

/-- Beyond this many decimal places every numeral is zero or infinite. -/
def decimalReach : Int := 400

/-- The nearest double to `digits * 10 ^ exponent`.

Exponents far outside the range of the format are answered without computing their power. -/
def ofDecimal (digits : Nat) (exponent : Int) : Binary64 :=
  let size : Int := (digits.log2 : Int) / 3 + 1
  if digits = 0 then zero
  else if exponent > decimalReach then .infinite
  else if exponent + size < -decimalReach then zero
  else
    match exponent with
    | .ofNat k => ofRatio (digits * Nat.pow 10 k) 1
    | .negSucc k => ofRatio digits (Nat.pow 10 (k + 1))

/-- The natural number that a value is equal to, if there is one. -/
def toNat? : Binary64 → Option Nat
  | .infinite => none
  | .finite m (.ofNat k) => some (m * Nat.pow 2 k)
  | .finite m (.negSucc k) =>
    let unit := Nat.pow 2 (k + 1)
    if m % unit = 0 then some (m / unit) else none

end Binary64

end JsxWidgets
