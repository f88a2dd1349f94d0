import JsxWidgets.Decimal.Binary64

/-!
# The shortest decimal that names a double

Many decimals lie in the interval of reals that round to a given double. The one written is the
shortest of them, and among those of equal length the nearest to the value.

## The search

For `d` digits the value lies between two neighbours on the grid of `d`-digit decimals. If any
point of that grid reads back as the value, one of these two neighbours does, so testing both for
`d = 1, 2, …, 17` finds the shortest. Seventeen digits always suffice.

## The layouts

* `Binary64.positional` never uses an exponent; it is how a number appears inside source text.
* `Binary64.exponential` is the layout of JSON numbers: positional in the middle of the range, with
  an exponent outside it, and always with a mark of its own that tells it from an integer.
-/

namespace JsxWidgets

/-- A decimal `digits * 10 ^ exponent`. -/
structure Decimal where
  /-- The significant digits, read as a number. -/
  digits : Nat
  /-- The power of ten of the last digit. -/
  exponent : Int
  deriving DecidableEq, Repr, Inhabited

namespace Binary64

/-- The value of a decimal compared with a ratio: `num / den` in units of `10 ^ e`, rounded down. -/
def floorAt (num den : Nat) (e : Int) : Nat :=
  match e with
  | .ofNat k => num / (den * Nat.pow 10 k)
  | .negSucc k => num * Nat.pow 10 (k + 1) / den

/-- The exact ratio of a finite value. -/
def ratio (m : Nat) (e : Int) : Nat × Nat :=
  match e with
  | .ofNat k => (m * Nat.pow 2 k, 1)
  | .negSucc k => (m, Nat.pow 2 (k + 1))

/-- Twice the distance between a decimal and a ratio, times a common denominator: enough to compare
the distances of two decimals on one grid. -/
def distance (num den : Nat) (d : Decimal) : Nat :=
  let (a, b) :=
    match d.exponent with
    | .ofNat k => (d.digits * Nat.pow 10 k * den, num)
    | .negSucc k => (d.digits * den, num * Nat.pow 10 (k + 1))
  if a ≤ b then b - a else a - b

/-- The power of ten of the first digit of `num / den`. -/
def leadingExponent (num den : Nat) : Int :=
  -- The bit lengths fix the answer up to one step, which is then put right.
  let bits : Int := (num.log2 : Int) - (den.log2 : Int)
  let guess : Int := Int.fdiv ((bits - 1) * 30103) 100000
  let reaches (e : Int) : Bool := floorAt num den e ≥ 1
  if reaches (guess + 2) then guess + 2
  else if reaches (guess + 1) then guess + 1
  else if reaches guess then guess
  else guess - 1

/-- Whether a decimal reads back as the given value. -/
def readsBack (v : Binary64) (d : Decimal) : Bool :=
  ofDecimal d.digits d.exponent == v

/-- The candidate of one grid: of the two neighbours that read back, the nearer. -/
def onGrid (v : Binary64) (num den : Nat) (exponent : Int) : Option Decimal :=
  let low : Decimal := ⟨floorAt num den exponent, exponent⟩
  let high : Decimal := ⟨low.digits + 1, exponent⟩
  match readsBack v low, readsBack v high with
  | true, true =>
    let a := distance num den low
    let b := distance num den high
    some (if a < b then low else if b < a then high
      else if low.digits % 2 = 0 then low else high)
  | true, false => some low
  | false, true => some high
  | false, false => none

/-- Searches the grids with `count` digits and more. -/
def searchGrids (v : Binary64) (num den : Nat) (lead : Int) : Nat → Nat → Decimal
  | 0, count => ⟨floorAt num den (lead - count), lead - count⟩
  | fuel + 1, count =>
    (onGrid v num den (lead - count)).getD (searchGrids v num den lead fuel (count + 1))

/-- Drops the zeros at the end of the digits. -/
def trimZeros : Nat → Decimal → Decimal
  | 0, d => d
  | fuel + 1, d =>
    if d.digits ≠ 0 ∧ d.digits % 10 = 0 then trimZeros fuel ⟨d.digits / 10, d.exponent + 1⟩ else d

/-- The shortest decimal that names a finite value. -/
def shortest (m : Nat) (e : Int) : Decimal :=
  if m = 0 then ⟨0, 0⟩
  else
    let (num, den) := ratio m e
    trimZeros 20 (searchGrids (.finite m e) num den (leadingExponent num den) 17 0)

/-- The decimal numeral of a natural number. -/
def digitsOf (n : Nat) : List Char := Nat.toDigits 10 n

/-- A run of zeros. -/
def zeros (n : Nat) : List Char := List.replicate n '0'

/-- The positional text: digits and, where needed, a point, but never an exponent. -/
def positional : Binary64 → String
  | .infinite => "inf"
  | .finite m e =>
    let d := shortest m e
    let ds := digitsOf d.digits
    match d.exponent with
    | .ofNat k => if d.digits = 0 then "0" else String.ofList (ds ++ zeros k)
    | .negSucc k =>
      let places := k + 1
      -- the point falls among the digits, or zeros fill up to it
      if ds.length > places then
        String.ofList (ds.take (ds.length - places) ++ '.' :: ds.drop (ds.length - places))
      else
        String.ofList ('0' :: '.' :: zeros (places - ds.length) ++ ds)

/-- The layout of a JSON number that is not an integer literal.

With `kk` the position of the point counted from the first digit: a whole number below `10 ^ 16`
gets `.0`, a point is set among or in front of the digits down to `10 ^ -5`, and any other magnitude
is written with an exponent. -/
def exponential : Binary64 → String
  | .infinite => "null"
  | .finite m e =>
    let d := shortest m e
    let ds := digitsOf d.digits
    let kk : Int := d.exponent + ds.length
    if d.digits = 0 then "0.0"
    -- the bounds on the power are those of the shortest printer of doubles
    else if d.exponent ≥ 0 ∧ kk ≤ 16 then
      String.ofList (ds ++ zeros d.exponent.toNat ++ ['.', '0'])
    else if 0 < kk ∧ kk ≤ 16 then
      String.ofList (ds.take kk.toNat ++ '.' :: ds.drop kk.toNat)
    else if -5 < kk ∧ kk ≤ 0 then
      String.ofList ('0' :: '.' :: zeros (-kk).toNat ++ ds)
    else
      let power := toString (kk - 1)
      match ds with
      | [c] => String.ofList [c] ++ "e" ++ power
      | c :: rest => String.ofList (c :: '.' :: rest) ++ "e" ++ power
      | [] => "0.0"

end Binary64

end JsxWidgets
