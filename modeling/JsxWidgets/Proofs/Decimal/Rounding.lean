import Mathlib.Algebra.Order.Field.Power
import Mathlib.Algebra.Order.Floor.Semifield
import Mathlib.Data.Rat.Floor
import Mathlib.Tactic.FieldSimp
import Mathlib.Tactic.Positivity
import Mathlib.Tactic.Ring
import JsxWidgets.Decimal.Binary64

/-!
# Rounding to doubles

`Binary64.ofRatio` is given a quotient of natural numbers. What it makes of it is a matter of the
rational number alone (`Binary64.Rounds`): the mantissa is the rational number in units of the last
place, rounded, and the exponent is the smallest one, down to the least of the format, with which
the mantissa fits. At most one double answers to that (`Binary64.Rounds.unique`), so different
quotients of one value are rounded alike, and a rational number names at most one double.
-/

namespace JsxWidgets.Binary64

/-- The natural number nearest to a rational number, a tie going to the even one. -/
def roundEven (x : ℚ) : ℕ :=
  if x - ⌊x⌋₊ < 1 / 2 then ⌊x⌋₊
  else if 1 / 2 < x - ⌊x⌋₊ then ⌊x⌋₊ + 1
  else if ⌊x⌋₊ % 2 = 0 then ⌊x⌋₊
  else ⌊x⌋₊ + 1

theorem floor_le_roundEven (x : ℚ) : ⌊x⌋₊ ≤ roundEven x := by
  rw [roundEven]
  split_ifs <;> omega

theorem roundEven_le_floor_add_one (x : ℚ) : roundEven x ≤ ⌊x⌋₊ + 1 := by
  rw [roundEven]
  split_ifs <;> omega

/-- A larger number is not rounded to a smaller one. -/
theorem roundEven_mono {x y : ℚ} (h : x ≤ y) : roundEven x ≤ roundEven y := by
  have hfloor : ⌊x⌋₊ ≤ ⌊y⌋₊ := Nat.floor_mono h
  rcases hfloor.lt_or_eq with hlt | heq
  · calc roundEven x ≤ ⌊x⌋₊ + 1 := roundEven_le_floor_add_one x
      _ ≤ ⌊y⌋₊ := hlt
      _ ≤ roundEven y := floor_le_roundEven y
  · -- Between two natural numbers the fractions decide.
    rw [roundEven, roundEven, heq]
    split_ifs <;> first | omega | linarith

theorem roundEven_natCast (n : ℕ) : roundEven n = n := by
  rw [roundEven, Nat.floor_natCast, sub_self, if_pos (by norm_num)]

/-- What lies less than one half below a natural number is rounded to it or further. -/
theorem le_roundEven {n : ℕ} {x : ℚ} (h : n - 1 / 2 < x) : n ≤ roundEven x := by
  rcases le_or_gt n ⌊x⌋₊ with hle | hlt
  · exact hle.trans (floor_le_roundEven x)
  · have hbelow := Nat.lt_floor_add_one x
    have hn : n = ⌊x⌋₊ + 1 := by
      have hupper : n < ⌊x⌋₊ + 2 := by
        have hreal : (n : ℚ) < ⌊x⌋₊ + 2 := by linarith
        exact_mod_cast hreal
      omega
    have hfraction : 1 / 2 < x - ⌊x⌋₊ := by
      rw [hn] at h
      push_cast at h
      linarith
    rw [roundEven, if_neg (not_lt.mpr hfraction.le), if_pos hfraction, hn]

/-- The rounding of a quotient is that of the rational number. -/
theorem roundQuotient_eq_roundEven (num : ℕ) {den : ℕ} (hden : 0 < den) :
    roundQuotient num den = roundEven (num / den) := by
  have hfloor : ⌊(num : ℚ) / den⌋₊ = num / den := Nat.floor_div_eq_div num den
  have hpos : (0 : ℚ) < den := by exact_mod_cast hden
  -- the fraction part is the remainder over the divisor
  have hfraction : (num : ℚ) / den - (num / den : ℕ) = (num % den : ℕ) / den := by
    have hdivision : (num : ℚ) = den * (num / den : ℕ) + (num % den : ℕ) := by
      exact_mod_cast (Nat.div_add_mod num den).symm
    rw [eq_div_iff hpos.ne', sub_mul, div_mul_cancel₀ _ hpos.ne']
    linarith
  have hlow : (num : ℚ) / den - (num / den : ℕ) < 1 / 2 ↔ 2 * (num % den) < den := by
    rw [hfraction, div_lt_iff₀ hpos]
    constructor
    · intro h
      have hcast : (2 : ℚ) * (num % den : ℕ) < den := by linarith
      exact_mod_cast hcast
    · intro h
      have hcast : (2 : ℚ) * (num % den : ℕ) < den := by exact_mod_cast h
      linarith
  have hhigh : 1 / 2 < (num : ℚ) / den - (num / den : ℕ) ↔ den < 2 * (num % den) := by
    rw [hfraction, lt_div_iff₀ hpos]
    constructor
    · intro h
      have hcast : (den : ℚ) < 2 * (num % den : ℕ) := by linarith
      exact_mod_cast hcast
    · intro h
      have hcast : (den : ℚ) < 2 * (num % den : ℕ) := by exact_mod_cast h
      linarith
  rw [roundQuotient, roundEven, hfloor]
  simp only [hlow, hhigh]

theorem scaledQuotient_eq_roundEven (num : ℕ) {den : ℕ} (hden : 0 < den) (e : ℤ) :
    scaledQuotient num den e = roundEven ((num : ℚ) / den / 2 ^ e) := by
  cases e with
  | ofNat k =>
    have hunit : 0 < den * 2 ^ k := by positivity
    rw [scaledQuotient, Nat.pow_eq, roundQuotient_eq_roundEven _ hunit, Int.ofNat_eq_natCast,
      zpow_natCast, div_div]
    push_cast
    rfl
  | negSucc k =>
    rw [scaledQuotient, Nat.pow_eq, roundQuotient_eq_roundEven _ hden, zpow_negSucc,
      div_inv_eq_mul, div_mul_eq_mul_div]
    push_cast
    rfl

/-- **A rational number is rounded to a double**: the mantissa is the number in units of the last
place, rounded, and no smaller exponent of the format would do. -/
structure Rounds (x : ℚ) (m : ℕ) (e : ℤ) : Prop where
  /-- The mantissa is the rounded number. -/
  mantissa : roundEven (x / 2 ^ e) = m
  /-- It fits. -/
  fits : m < 2 ^ precision
  /-- The exponent is one of the format. -/
  inFormat : minExponent ≤ e
  /-- With a smaller exponent the mantissa would not fit. -/
  least : e = minExponent ∨ 2 ^ precision ≤ roundEven (x / 2 ^ (e - 1))

theorem div_two_zpow_sub_one (x : ℚ) (e : ℤ) : x / 2 ^ (e - 1) = 2 * (x / 2 ^ e) := by
  rw [zpow_sub_one₀ (by norm_num)]
  field_simp

/-- In larger units a number is rounded to a smaller one. -/
theorem roundEven_div_anti {x : ℚ} (hx : 0 ≤ x) {e e' : ℤ} (h : e ≤ e') :
    roundEven (x / 2 ^ e') ≤ roundEven (x / 2 ^ e) := by
  refine roundEven_mono (div_le_div_of_nonneg_left hx (by positivity) ?_)
  exact zpow_le_zpow_right₀ (by norm_num) h

theorem Rounds.exponent_le {x : ℚ} (hx : 0 ≤ x) {m m' : ℕ} {e e' : ℤ} (h : Rounds x m e)
    (h' : Rounds x m' e') : e ≤ e' := by
  by_contra hlt
  rcases h.least with heq | hlarge
  · exact hlt (heq ▸ h'.inFormat)
  · -- One step below `e` the mantissa is too large, and so it is at `e'`.
    have hanti : roundEven (x / 2 ^ (e - 1)) ≤ roundEven (x / 2 ^ e') :=
      roundEven_div_anti hx (by omega)
    rw [h'.mantissa] at hanti
    exact absurd (hlarge.trans hanti) (not_le.mpr h'.fits)

/-- **A rational number names at most one double.** -/
theorem Rounds.unique {x : ℚ} (hx : 0 ≤ x) {m m' : ℕ} {e e' : ℤ} (h : Rounds x m e)
    (h' : Rounds x m' e') : m = m' ∧ e = e' := by
  have he : e = e' := le_antisymm (h.exponent_le hx h') (h'.exponent_le hx h)
  subst he
  exact ⟨h.mantissa.symm.trans h'.mantissa, rfl⟩

/-! ### The exponent that is chosen -/

section Guess

variable {num den : ℕ}

/-- The exponent that the bit lengths of a quotient suggest. -/
def guess (num den : ℕ) : ℤ := (num.log2 : ℤ) - (den.log2 : ℤ) - (precision : ℤ)

theorem two_zpow_lt_quotient (hnum : num ≠ 0) (hden : den ≠ 0) :
    (2 : ℚ) ^ ((num.log2 : ℤ) - (den.log2 : ℤ) - 1) < num / den := by
  have hpos : (0 : ℚ) < den := by exact_mod_cast Nat.pos_of_ne_zero hden
  have hlow : (2 : ℚ) ^ num.log2 ≤ num := by exact_mod_cast Nat.log2_self_le hnum
  have hhigh : (den : ℚ) < 2 ^ (den.log2 + 1) := by exact_mod_cast Nat.lt_log2_self
  rw [lt_div_iff₀ hpos]
  -- below the numerator by its logarithm, above the denominator by one more
  calc (2 : ℚ) ^ ((num.log2 : ℤ) - (den.log2 : ℤ) - 1) * den
      < 2 ^ ((num.log2 : ℤ) - (den.log2 : ℤ) - 1) * 2 ^ (den.log2 + 1) := by
        exact mul_lt_mul_of_pos_left hhigh (by positivity)
    _ = 2 ^ num.log2 := by
        rw [← zpow_natCast, ← zpow_natCast, ← zpow_add₀ (by norm_num)]
        congr 1
        push_cast
        ring
    _ ≤ num := hlow

theorem quotient_lt_two_zpow (hden : den ≠ 0) :
    (num / den : ℚ) < 2 ^ ((num.log2 : ℤ) - (den.log2 : ℤ) + 1) := by
  have hpos : (0 : ℚ) < den := by exact_mod_cast Nat.pos_of_ne_zero hden
  have hlow : (2 : ℚ) ^ den.log2 ≤ den := by exact_mod_cast Nat.log2_self_le hden
  have hhigh : (num : ℚ) < 2 ^ (num.log2 + 1) := by exact_mod_cast Nat.lt_log2_self
  rw [div_lt_iff₀ hpos]
  calc (num : ℚ) < 2 ^ (num.log2 + 1) := hhigh
    _ = 2 ^ ((num.log2 : ℤ) - (den.log2 : ℤ) + 1) * 2 ^ den.log2 := by
        rw [← zpow_natCast, ← zpow_natCast, ← zpow_add₀ (by norm_num)]
        congr 1
        push_cast
        ring
    _ ≤ 2 ^ ((num.log2 : ℤ) - (den.log2 : ℤ) + 1) * den := by
        exact mul_le_mul_of_nonneg_left hlow (by positivity)

/-- One step below the guess the mantissa is too large. -/
theorem le_roundEven_guess_sub_one (hnum : num ≠ 0) (hden : den ≠ 0) :
    2 ^ precision ≤ roundEven ((num / den : ℚ) / 2 ^ (guess num den - 1)) := by
  refine le_trans (Nat.le_floor ?_) (floor_le_roundEven _)
  have hlt := two_zpow_lt_quotient hnum hden
  rw [le_div_iff₀ (by positivity)]
  push_cast
  calc (2 : ℚ) ^ precision * 2 ^ (guess num den - 1)
      = 2 ^ ((num.log2 : ℤ) - (den.log2 : ℤ) - 1) := by
        rw [← zpow_natCast, ← zpow_add₀ (by norm_num), guess]
        congr 1
        ring
    _ ≤ num / den := hlt.le

/-- Two steps above the guess the mantissa fits. -/
theorem roundEven_guess_add_two_lt (hden : den ≠ 0) :
    roundEven ((num / den : ℚ) / 2 ^ (guess num den + 2)) < 2 ^ precision := by
  -- two bits above the guess the quotient has one bit to spare for rounding up
  have hfloor : ⌊(num / den : ℚ) / 2 ^ (guess num den + 2)⌋₊ < 2 ^ 52 := by
    rw [Nat.floor_lt (by positivity), div_lt_iff₀ (by positivity)]
    have hlt := @quotient_lt_two_zpow num den hden
    push_cast
    calc (num / den : ℚ) < 2 ^ ((num.log2 : ℤ) - (den.log2 : ℤ) + 1) := hlt
      _ = 2 ^ 52 * 2 ^ (guess num den + 2) := by
          rw [← zpow_natCast, ← zpow_add₀ (by norm_num), guess, precision]
          congr 1
          push_cast
          ring
  have hround := roundEven_le_floor_add_one ((num / den : ℚ) / 2 ^ (guess num den + 2))
  rw [precision]
  omega

end Guess

/-- The exponent of a rounded quotient is the smallest one with which the mantissa fits, unless that
is none of the format. -/
theorem exists_ofRatio_eq {num den : ℕ} (hnum : num ≠ 0) (hden : 0 < den) :
    ∃ e₀ : ℤ, roundEven ((num / den : ℚ) / 2 ^ e₀) < 2 ^ precision ∧
      2 ^ precision ≤ roundEven ((num / den : ℚ) / 2 ^ (e₀ - 1)) ∧
      ofRatio num den =
        if max e₀ minExponent > maxExponent then .infinite
        else .finite (scaledQuotient num den (max e₀ minExponent)) (max e₀ minExponent) := by
  have hlow := le_roundEven_guess_sub_one hnum hden.ne'
  have hhigh := @roundEven_guess_add_two_lt num den hden.ne'
  have hfits : ∀ e, (scaledQuotient num den e < Nat.pow 2 precision) ↔
      roundEven ((num / den : ℚ) / 2 ^ e) < 2 ^ precision := fun e => by
    rw [scaledQuotient_eq_roundEven num hden e, Nat.pow_eq]
  rw [ofRatio, if_neg hnum]
  simp only [decide_eq_true_eq, hfits]
  rw [show (num.log2 : ℤ) - (den.log2 : ℤ) - (precision : ℤ) = guess num den from rfl]
  -- The guess, or the first of the next two exponents with which the mantissa fits.
  by_cases hguess : roundEven ((num / den : ℚ) / 2 ^ guess num den) < 2 ^ precision
  · exact ⟨guess num den, hguess, hlow, by rw [if_pos hguess]⟩
  by_cases hnext : roundEven ((num / den : ℚ) / 2 ^ (guess num den + 1)) < 2 ^ precision
  · refine ⟨guess num den + 1, hnext, ?_, by rw [if_neg hguess, if_pos hnext]⟩
    rw [add_sub_cancel_right]
    exact not_lt.mp hguess
  · refine ⟨guess num den + 2, hhigh, ?_, by rw [if_neg hguess, if_neg hnext]⟩
    rw [show guess num den + 2 - 1 = guess num den + 1 by ring]
    exact not_lt.mp hnext

/-- **A quotient is rounded as the rational number that it is.** -/
theorem ofRatio_rounds {num den : ℕ} (hnum : num ≠ 0) (hden : 0 < den) {m : ℕ} {e : ℤ}
    (h : ofRatio num den = .finite m e) : Rounds (num / den) m e := by
  have hx : (0 : ℚ) ≤ num / den := by positivity
  obtain ⟨e₀, hfits, hleast, heq⟩ := exists_ofRatio_eq hnum hden
  rw [heq] at h
  split_ifs at h
  injection h with hm he
  rw [scaledQuotient_eq_roundEven num hden, he] at hm
  refine ⟨hm, ?_, by omega, ?_⟩
  · rw [← hm]
    exact (roundEven_div_anti hx (by omega)).trans_lt hfits
  -- the least exponent that fits may lie below the least one there is
  · rcases le_or_gt e₀ minExponent with hmin | hmin
    · exact Or.inl (by omega)
    · right
      rwa [show e = e₀ by omega]

/-! ### Doubles -/

/-- **A finite double**: its mantissa is of full width unless its exponent is the smallest one. -/
def IsDouble : Binary64 → Prop
  | .finite m e =>
    m < 2 ^ precision ∧ minExponent ≤ e ∧ e ≤ maxExponent ∧
      (e = minExponent ∨ 2 ^ (precision - 1) ≤ m)
  | .infinite => False

theorem zero_isDouble : zero.IsDouble := by
  rw [zero, IsDouble]
  exact ⟨by positivity, le_refl _, by decide, Or.inl rfl⟩

end JsxWidgets.Binary64
