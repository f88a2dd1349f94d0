import Mathlib.Data.List.Perm.Basic
import JsxWidgets.Json.Numeral
import JsxWidgets.Json.Quoted

/-!
# The grammar of JSON

`Spells` says which texts spell a value. It is the grammar of JSON: blanks may stand around every
value and sign, a text may escape its characters, and an object may have its entries in any order.
As a value is a table of fields in order, the entries of its texts have different names.

Nothing is said here of what a text is read for. An object is taken apart into the texts of its
values (`SpellsObject.exists_spells`), and each of them makes an object again (`Spells.alone`).
-/

namespace JsxWidgets.Json

/-! ### Blanks -/

/-- What may stand between tokens. -/
def IsGap (cs : List Char) : Prop := ∀ c ∈ cs, isBlank c = true

theorem isGap_nil : IsGap [] := List.forall_mem_nil _

/-! ### Numerals -/

/-- Digits, at least one. -/
structure AreDigits (cs : List Char) : Prop where
  ne_nil : cs ≠ []
  digits : ∀ c ∈ cs, Text.isAsciiDigit c = true

/-- The exponent of a numeral as it is written. -/
structure PowerText where
  /-- The letter in front, `e` or `E`. -/
  letter : Char
  /-- The sign, if there is one. -/
  sign : Option Char
  /-- The digits. -/
  digits : List Char

/-- A numeral as it is written. -/
structure NumeralText where
  /-- Whether a minus sign stands in front. -/
  negative : Bool
  /-- The digits in front of the point. -/
  whole : List Char
  /-- The digits behind the point, if there is one. -/
  places : Option (List Char)
  /-- The exponent, if there is one. -/
  power : Option PowerText

namespace PowerText

/-- The characters of an exponent. -/
def chars (p : PowerText) : List Char := p.letter :: (p.sign.toList ++ p.digits)

/-- The exponent. -/
def value (p : PowerText) : Int :=
  if p.sign = some '-' then -(exponentSize p.digits : Int) else exponentSize p.digits

/-- What an exponent has to look like. -/
structure WellFormed (p : PowerText) : Prop where
  letter : p.letter = 'e' ∨ p.letter = 'E'
  sign : ∀ c ∈ p.sign, c = '+' ∨ c = '-'
  digits : AreDigits p.digits

end PowerText

namespace NumeralText

/-- The characters of a sign. -/
def signChars (negative : Bool) : List Char := if negative then ['-'] else []

/-- The characters of a fraction. -/
def fractionChars : Option (List Char) → List Char
  | some ds => '.' :: ds
  | none => []

/-- The characters of an exponent, if there is one. -/
def powerChars : Option PowerText → List Char
  | some p => p.chars
  | none => []

/-- The characters of a numeral. -/
def chars (t : NumeralText) : List Char :=
  signChars t.negative ++ (t.whole ++ (fractionChars t.places ++ powerChars t.power))

/-- The numeral that is written. -/
def numeral (t : NumeralText) : Numeral where
  negative := t.negative
  digits := Nat.ofDigitChars 10 (t.whole ++ t.places.getD []) 0
  exponent := (t.power.map PowerText.value).getD 0 - (t.places.getD []).length
  isWhole := t.places.isNone && t.power.isNone

/-- What a numeral has to look like: there are no zeros in front, and digits behind a point. -/
structure WellFormed (t : NumeralText) : Prop where
  whole : AreDigits t.whole
  noZeros : t.whole.head? = some '0' → t.whole = ['0']
  places : ∀ ds ∈ t.places, AreDigits ds
  power : ∀ p ∈ t.power, p.WellFormed

end NumeralText

/-! ### Texts -/

/-- The characters that stand for themselves in a text. -/
def IsPlain (c : Char) : Prop := c ≠ '\x22' ∧ c ≠ '\\' ∧ 0x20 ≤ c.toNat

instance (c : Char) : Decidable (IsPlain c) := inferInstanceAs (Decidable (_ ∧ _ ∧ _))

/-- The escapes of one letter, with what they stand for. -/
def shortEscapes : List (Char × Char) :=
  [('\x22', '\x22'), ('\\', '\\'), ('/', '/'), ('b', '\x08'), ('f', '\x0c'), ('n', '\n'),
    ('r', '\r'), ('t', '\t')]

/-- Four hexadecimal digits spell a unit. -/
structure SpellsUnit (ds : List Char) (n : Nat) : Prop where
  length : ds.length = 4
  value : Text.numeral? 16 ds = some n

/-- The inside of a quoted text spells its characters. -/
inductive SpellsText : List Char → List Char → Prop
  /-- Nothing. -/
  | nil : SpellsText [] []
  /-- A character that stands for itself. -/
  | plain {c cs t} (hc : IsPlain c) (h : SpellsText cs t) : SpellsText (c :: cs) (c :: t)
  /-- A backslash and a letter. -/
  | short {e c cs t} (he : (e, c) ∈ shortEscapes) (h : SpellsText cs t) :
    SpellsText ('\\' :: e :: cs) (c :: t)
  /-- A unit that is a character. -/
  | unit {ds n cs t} (hds : SpellsUnit ds n) (hopens : opensPair n = false)
    (hcloses : closesPair n = false) (h : SpellsText cs t) :
    SpellsText ('\\' :: 'u' :: (ds ++ cs)) (Char.ofNat n :: t)
  /-- Two units that are a character together. -/
  | pair {ds n ds' n' cs t} (hds : SpellsUnit ds n) (hopens : opensPair n = true)
    (hds' : SpellsUnit ds' n') (hcloses : closesPair n' = true) (h : SpellsText cs t) :
    SpellsText ('\\' :: 'u' :: (ds ++ '\\' :: 'u' :: (ds' ++ cs))) (ofPair n n' :: t)

theorem SpellsText.of_plain {t : List Char} (h : ∀ c ∈ t, IsPlain c) : SpellsText t t := by
  induction t with
  | nil => exact .nil
  | cons c t ih =>
    obtain ⟨hc, ht⟩ := List.forall_mem_cons.mp h
    exact .plain hc (ih ht)

/-! ### Values -/

mutual

/-- **The texts that spell a value.** -/
inductive Spells : List Char → Literal → Prop
  /-- The null value. -/
  | null : Spells ['n', 'u', 'l', 'l'] .null
  /-- The true value. -/
  | yes : Spells ['t', 'r', 'u', 'e'] (.bool true)
  /-- The false value. -/
  | no : Spells ['f', 'a', 'l', 's', 'e'] (.bool false)
  /-- A number. -/
  | number {t : NumeralText} {v} (ht : t.WellFormed) (hv : t.numeral.value? = some v) :
    Spells t.chars v
  /-- A text in quotes. -/
  | text {cs t} (h : SpellsText cs t) :
    Spells ('\x22' :: (cs ++ ['\x22'])) (.text (String.ofList t))
  /-- A list without items. -/
  | noItems {gap} (hgap : IsGap gap) : Spells ('[' :: (gap ++ [']'])) (.array [])
  /-- A list with items. -/
  | items {cs vs} (h : SpellsItems cs vs) : Spells ('[' :: cs) (.array vs)
  /-- An object without fields. -/
  | noFields {gap} (hgap : IsGap gap) : Spells ('\x7b' :: (gap ++ ['\x7d'])) (.object [])
  /-- An object with fields, in any order. -/
  | fields {cs entries fields} (h : SpellsEntries cs entries) (hperm : fields.Perm entries)
    (hsorted : (fields.map Prod.fst).Pairwise (· < ·)) : Spells ('\x7b' :: cs) (.object fields)

/-- An item, the items behind it and the closing bracket. -/
inductive SpellsItems : List Char → List Literal → Prop
  | intro {gap cs v more vs} (hgap : IsGap gap) (h : Spells cs v)
    (hmore : SpellsMoreItems more vs) : SpellsItems (gap ++ (cs ++ more)) (v :: vs)

/-- What stands behind an item of a list. -/
inductive SpellsMoreItems : List Char → List Literal → Prop
  /-- The closing bracket. -/
  | close {gap} (hgap : IsGap gap) : SpellsMoreItems (gap ++ [']']) []
  /-- A comma and further items. -/
  | comma {gap cs vs} (hgap : IsGap gap) (h : SpellsItems cs vs) :
    SpellsMoreItems (gap ++ ',' :: cs) vs

/-- An entry, the entries behind it and the closing brace. -/
inductive SpellsEntries : List Char → List (String × Literal) → Prop
  | intro {front key t behind gap cs v more entries} (hfront : IsGap front)
    (hkey : SpellsText key t) (hbehind : IsGap behind) (hgap : IsGap gap) (h : Spells cs v)
    (hmore : SpellsMoreEntries more entries) :
    SpellsEntries (front ++ '\x22' :: (key ++ '\x22' :: (behind ++ ':' :: (gap ++ (cs ++ more)))))
      ((String.ofList t, v) :: entries)

/-- What stands behind an entry of an object. -/
inductive SpellsMoreEntries : List Char → List (String × Literal) → Prop
  /-- The closing brace. -/
  | close {gap} (hgap : IsGap gap) : SpellsMoreEntries (gap ++ ['\x7d']) []
  /-- A comma and further entries. -/
  | comma {gap cs entries} (hgap : IsGap gap) (h : SpellsEntries cs entries) :
    SpellsMoreEntries (gap ++ ',' :: cs) entries

end

/-- **The texts that spell an object**, with its entries in their order. -/
inductive SpellsObject : String → List (String × Literal) → Prop
  /-- Without entries. -/
  | empty {text front gap behind} (hfront : IsGap front) (hgap : IsGap gap) (hbehind : IsGap behind)
    (htext : text.toList = front ++ '\x7b' :: (gap ++ '\x7d' :: behind)) : SpellsObject text []
  /-- With entries. -/
  | entries {text front cs entries behind} (hfront : IsGap front) (h : SpellsEntries cs entries)
    (hbehind : IsGap behind) (htext : text.toList = front ++ '\x7b' :: (cs ++ behind)) :
    SpellsObject text entries

/-- Digits on their own are a numeral. -/
theorem Spells.digits {ds : List Char} {v : Literal} (hds : AreDigits ds)
    (hzeros : ds.head? = some '0' → ds = ['0'])
    (hv : (⟨false, ds, none, none⟩ : NumeralText).numeral.value? = some v) : Spells ds v := by
  have hformed : (⟨false, ds, none, none⟩ : NumeralText).WellFormed :=
    { whole := hds, noZeros := hzeros, places := nofun, power := nofun }
  have hnumber : Spells (ds ++ []) v := .number hformed hv
  rwa [List.append_nil] at hnumber

/-! ### The values in an object -/

mutual

theorem SpellsEntries.exists_spells {cs : List Char} {entries : List (String × Literal)} :
    SpellsEntries cs entries → ∀ entry ∈ entries, ∃ value, Spells value entry.2
  | .intro _ _ _ _ hv hmore => List.forall_mem_cons.mpr ⟨⟨_, hv⟩, hmore.exists_spells⟩

theorem SpellsMoreEntries.exists_spells {cs : List Char} {entries : List (String × Literal)} :
    SpellsMoreEntries cs entries → ∀ entry ∈ entries, ∃ value, Spells value entry.2
  | .close _ => List.forall_mem_nil _
  | .comma _ h => h.exists_spells

end

/-- The values in an object have texts of their own. -/
theorem SpellsObject.exists_spells {text : String} {entries : List (String × Literal)}
    (h : SpellsObject text entries) : ∀ entry ∈ entries, ∃ value, Spells value entry.2 := by
  cases h with
  | empty => exact List.forall_mem_nil _
  | entries _ h => exact h.exists_spells

/-- An object may have a single entry. -/
theorem Spells.alone {key : String} (hkey : ∀ c ∈ key.toList, IsPlain c) {cs : List Char}
    {v : Literal} (h : Spells cs v) : ∃ text, SpellsObject text [(key, v)] := by
  have hentry := SpellsEntries.intro isGap_nil (.of_plain hkey) isGap_nil isGap_nil h
    (.close isGap_nil)
  rw [String.ofList_toList] at hentry
  exact ⟨_, .entries isGap_nil hentry isGap_nil String.toList_ofList⟩

end JsxWidgets.Json
