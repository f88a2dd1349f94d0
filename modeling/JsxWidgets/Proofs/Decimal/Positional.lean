import Mathlib.Data.Nat.Digits.Defs
import JsxWidgets.Decimal.Shortest
import JsxWidgets.Proofs.Decimal.Rounding

/-!
# The positional text of a double

The text of a double names the double: `Binary64.positional_injective`. The decimal that the search
stops at is rounded to the double (`Binary64.shortest_rounds`): a decimal that reads back is, and
the one that is taken when none was found lies so close below the double that it is as well. The
text shows the value of that decimal, and at most one double is rounded from it.

The bit lengths give the power of ten of the first digit up to one step. That they do not give too
large a power is a comparison of powers of two and of ten for every bit length of the format.
-/

namespace JsxWidgets

/-- The value of a decimal. -/
def Decimal.value (d : Decimal) : ℚ := d.digits * 10 ^ d.exponent

theorem Decimal.value_nonneg (d : Decimal) : 0 ≤ d.value := by
  rw [Decimal.value]
  positivity

namespace Binary64

/-- Dropping zeros at the end does not change the value. -/
theorem value_trimZeros (fuel : ℕ) (d : Decimal) : (trimZeros fuel d).value = d.value := by
  induction fuel generalizing d with
  | zero => rfl
  | succ fuel ih =>
    rw [trimZeros]
    split_ifs with hzero
    · rw [ih, Decimal.value, Decimal.value, zpow_add_one₀ (by norm_num)]
      have hdigits : (d.digits : ℚ) = 10 * (d.digits / 10 : ℕ) := by
        exact_mod_cast (Nat.mul_div_cancel' (Nat.dvd_of_mod_eq_zero hzero.2)).symm
      rw [hdigits]
      ring
    · rfl

/-- A decimal that reads back is rounded to the value. -/
theorem rounds_of_readsBack {m : ℕ} (hm : m ≠ 0) {e : ℤ} {d : Decimal}
    (h : readsBack (.finite m e) d = true) : Rounds d.value m e := by
  rw [readsBack, beq_iff_eq] at h
  unfold ofDecimal at h
  dsimp only at h
  obtain ⟨digits, exponent⟩ := d
  split_ifs at h with hdigits
  · injection h with hzero
    exact absurd hzero.symm hm
  · injection h with hzero
    exact absurd hzero.symm hm
  -- the value is a product or a quotient; either is read back through one ratio
  · cases exponent with
    | ofNat k =>
      have hnum : digits * 10 ^ k ≠ 0 := Nat.mul_ne_zero hdigits (by positivity)
      have hrounds := ofRatio_rounds hnum Nat.one_pos h
      rw [Decimal.value, Int.ofNat_eq_natCast, zpow_natCast]
      push_cast at hrounds
      rwa [div_one] at hrounds
    | negSucc k =>
      have hrounds := ofRatio_rounds hdigits (Nat.pow_pos (by norm_num)) h
      rw [Decimal.value, zpow_negSucc, ← div_eq_mul_inv]
      push_cast at hrounds
      exact hrounds

/-! ### Decimals close to a double -/

/-- The value of a double. -/
def value (m : ℕ) (e : ℤ) : ℚ := m * 2 ^ e

/-- A number slightly below a double is rounded to it. -/
theorem IsDouble.rounds {m : ℕ} {e : ℤ} (h : (finite m e).IsDouble) {x : ℚ}
    (hle : x ≤ value m e) (hclose : value m e - x ≤ value m e / 10 ^ 17) : Rounds x m e := by
  obtain ⟨hfits, hmin, hmax, hfull⟩ := h
  have hunit : (0 : ℚ) < 2 ^ e := by positivity
  have hm : (m : ℚ) < 2 ^ 53 := by exact_mod_cast hfits
  -- In units of the last place the difference is less than a quarter.
  have hupper : x / 2 ^ e ≤ m := by
    rw [div_le_iff₀ hunit]
    exact hle
  have hlower : (m : ℚ) - 1 / 8 < x / 2 ^ e := by
    rw [lt_div_iff₀ hunit]
    rw [value] at hclose
    nlinarith
  refine ⟨le_antisymm ?_ (le_roundEven (by linarith)), hfits, hmin, ?_⟩
  · calc roundEven (x / 2 ^ e) ≤ roundEven m := roundEven_mono hupper
      _ = m := roundEven_natCast m
  · refine hfull.imp_right fun hwide => le_roundEven ?_
    have hwide' : (2 : ℚ) ^ 52 ≤ m := by exact_mod_cast hwide
    rw [div_two_zpow_sub_one, precision]
    push_cast
    linarith

/-! ### The power of ten of the first digit -/

theorem floorAt_eq_floor (num den : ℕ) (e : ℤ) :
    floorAt num den e = ⌊(num / den : ℚ) / 10 ^ e⌋₊ := by
  cases e with
  | ofNat k =>
    rw [floorAt, Nat.pow_eq, Int.ofNat_eq_natCast, zpow_natCast, div_div,
      ← Nat.floor_div_eq_div (K := ℚ)]
    push_cast
    rfl
  | negSucc k =>
    rw [floorAt, Nat.pow_eq, zpow_negSucc, div_inv_eq_mul, div_mul_eq_mul_div,
      ← Nat.floor_div_eq_div (K := ℚ)]
    push_cast
    rfl

theorem ten_pow_le_two_pow : ∀ b < 1100, 10 ^ (b * 30103 / 100000) ≤ 10 * 2 ^ b := by
  decide +kernel

theorem two_pow_le_ten_pow : ∀ c < 1100, 2 ^ c ≤ 10 ^ ((c * 30103 + 99999) / 100000 + 1) := by
  decide +kernel

/-- The power of ten that is guessed from a bit length is at most one step too large. -/
theorem ten_zpow_le_two_zpow {b : ℤ} (hlow : -1100 < b) (hhigh : b < 1100) :
    (10 : ℚ) ^ (Int.fdiv (b * 30103) 100000 - 1) ≤ 2 ^ b := by
  rw [Int.fdiv_eq_ediv_of_nonneg _ (by norm_num)]
  -- the bound on the powers of two is about natural exponents, so the signs part
  rcases le_or_gt 0 b with hsign | hsign
  · obtain ⟨n, rfl⟩ := Int.eq_ofNat_of_zero_le hsign
    have hpow : (10 : ℚ) ^ (n * 30103 / 100000) ≤ 10 * 2 ^ n := by
      exact_mod_cast ten_pow_le_two_pow n (by omega)
    rw [zpow_sub_one₀ (by norm_num), ← div_eq_mul_inv, div_le_iff₀ (by norm_num),
      mul_comm (2 ^ (n : ℤ)),
      show (n : ℤ) * 30103 / 100000 = ((n * 30103 / 100000 : ℕ) : ℤ) by omega, zpow_natCast,
      zpow_natCast]
    exact hpow
  · obtain ⟨c, rfl⟩ : ∃ c : ℕ, b = -(c : ℤ) := ⟨b.natAbs, by omega⟩
    have hpow : (2 : ℚ) ^ c ≤ 10 ^ ((c * 30103 + 99999) / 100000 + 1) := by
      exact_mod_cast two_pow_le_ten_pow c (by omega)
    rw [show -(c : ℤ) * 30103 / 100000 - 1 = -(((c * 30103 + 99999) / 100000 + 1 : ℕ) : ℤ) by omega,
      zpow_neg, zpow_neg, zpow_natCast, zpow_natCast]
    exact inv_anti₀ (by positivity) hpow

/-- The power of ten of the first digit is at most the number, which must not be too far from
one. -/
theorem ten_zpow_leadingExponent_le {num den : ℕ} (hnum : num ≠ 0) (hden : den ≠ 0)
    (hlow : -1100 < (num.log2 : ℤ) - den.log2 - 1) (hhigh : (num.log2 : ℤ) - den.log2 - 1 < 1100) :
    (10 : ℚ) ^ leadingExponent num den ≤ num / den := by
  -- an exponent that passes the check is low enough already
  have hreaches : ∀ e : ℤ, floorAt num den e ≥ 1 → (10 : ℚ) ^ e ≤ num / den := by
    intro e h
    rw [floorAt_eq_floor] at h
    have hone : 1 ≤ (num / den : ℚ) / 10 ^ e := by
      exact_mod_cast (Nat.le_floor_iff' one_ne_zero).mp h
    rwa [one_le_div₀ (by positivity)] at hone
  rw [leadingExponent]
  dsimp only
  split_ifs with htwo hone hzero
  · exact hreaches _ (of_decide_eq_true htwo)
  · exact hreaches _ (of_decide_eq_true hone)
  · exact hreaches _ (of_decide_eq_true hzero)
  -- no candidate passed, so the last one is taken unchecked: the estimate bounds it
  · exact (ten_zpow_le_two_zpow hlow hhigh).trans (two_zpow_lt_quotient hnum hden).le

/-! ### The decimal that is found -/

theorem ratio_eq_value (m : ℕ) (e : ℤ) : ((ratio m e).1 / (ratio m e).2 : ℚ) = value m e := by
  cases e with
  | ofNat k =>
    rw [ratio, value, Int.ofNat_eq_natCast, zpow_natCast, Nat.pow_eq]
    push_cast
    rw [div_one]
  | negSucc k =>
    rw [ratio, value, zpow_negSucc, Nat.pow_eq, ← div_eq_mul_inv]
    push_cast
    rfl

/-- The power of ten of the first digit of a double. -/
theorem IsDouble.ten_zpow_leadingExponent_le {m : ℕ} (hm : m ≠ 0) {e : ℤ}
    (h : (finite m e).IsDouble) :
    (10 : ℚ) ^ leadingExponent (ratio m e).1 (ratio m e).2 ≤ value m e := by
  obtain ⟨hfits, hmin, hmax, -⟩ := h
  have hlog : m.log2 < 53 := (Nat.log2_lt hm).mpr hfits
  rw [minExponent] at hmin
  rw [maxExponent] at hmax
  rw [← ratio_eq_value]
  -- the logarithms of the two sides of the ratio stay within the range of the estimate
  cases e with
  | ofNat k =>
    have hnum : m * 2 ^ k ≠ 0 := Nat.mul_ne_zero hm (by positivity)
    have hlarge : (m * 2 ^ k).log2 < 53 + k := by
      rw [Nat.log2_lt hnum, pow_add]
      exact Nat.mul_lt_mul_of_pos_right hfits (by positivity)
    have hone : Nat.log2 1 = 0 := by decide
    rw [Int.ofNat_eq_natCast] at hmax
    refine Binary64.ten_zpow_leadingExponent_le hnum one_ne_zero ?_ ?_
    all_goals
      rw [ratio, Nat.pow_eq, hone]
      dsimp only
      omega
  | negSucc k =>
    have hden : 2 ^ (k + 1) ≠ 0 := by positivity
    refine Binary64.ten_zpow_leadingExponent_le hm hden ?_ ?_
    all_goals
      rw [ratio, Nat.pow_eq, Nat.log2_two_pow]
      dsimp only
      omega

/-- What holds of the decimals that read back and of the one that is taken if none does holds of the
one that is found. -/
theorem searchGrids_of {P : Decimal → Prop} {v : Binary64} {num den : ℕ} {lead : ℤ}
    (hreads : ∀ d, readsBack v d = true → P d) {fuel count : ℕ}
    (hlast : P ⟨floorAt num den (lead - (count + fuel : ℕ)), lead - (count + fuel : ℕ)⟩) :
    P (searchGrids v num den lead fuel count) := by
  induction fuel generalizing count with
  | zero => exact hlast
  | succ fuel ih =>
    rw [searchGrids]
    -- On the grid at this place there is a decimal that reads back, or the search goes on with
    -- finer ones.
    cases hgrid : onGrid v num den (lead - count) with
    | none =>
      rw [Option.getD_none]
      exact ih (by rwa [Nat.add_right_comm, Nat.add_assoc])
    | some d =>
      rw [Option.getD_some]
      refine hreads d ?_
      rw [onGrid] at hgrid
      dsimp only at hgrid
      -- Both neighbours read back, or one of them does, or none.
      split at hgrid
      · next hlow hhigh =>
        injection hgrid with hd
        subst hd
        split_ifs <;> assumption
      · next hlow _ =>
        injection hgrid with hd
        rw [← hd]
        exact hlow
      · next _ hhigh =>
        injection hgrid with hd
        rw [← hd]
        exact hhigh
      · cases hgrid

/-- The decimal that cuts a number off behind a digit is not above it, and not a unit of that digit
below it. -/
theorem floorAt_close (num den : ℕ) (e : ℤ) :
    (⟨floorAt num den e, e⟩ : Decimal).value ≤ num / den ∧
      (num / den : ℚ) - (⟨floorAt num den e, e⟩ : Decimal).value ≤ 10 ^ e := by
  have hunit : (0 : ℚ) < 10 ^ e := by positivity
  have hfloor : (floorAt num den e : ℚ) ≤ (num / den : ℚ) / 10 ^ e := by
    rw [floorAt_eq_floor]
    exact Nat.floor_le (by positivity)
  have hnext : (num / den : ℚ) / 10 ^ e < floorAt num den e + 1 := by
    rw [floorAt_eq_floor]
    exact Nat.lt_floor_add_one _
  rw [le_div_iff₀ hunit] at hfloor
  rw [div_lt_iff₀ hunit] at hnext
  rw [Decimal.value]
  exact ⟨hfloor, by linarith⟩

/-- **The decimal that is found is rounded to the double.** -/
theorem shortest_rounds {m : ℕ} {e : ℤ} (h : (finite m e).IsDouble) :
    Rounds (shortest m e).value m e := by
  by_cases hm : m = 0
  · subst hm
    have he : e = minExponent := h.2.2.2.resolve_right (by rw [precision]; norm_num)
    have hzero : (shortest 0 e).value = 0 := by
      rw [shortest, if_pos rfl, Decimal.value, Nat.cast_zero, zero_mul]
    rw [hzero, he]
    refine ⟨?_, by rw [precision]; norm_num, le_refl _, Or.inl rfl⟩
    rw [zero_div]
    exact roundEven_natCast 0
  · rw [shortest, if_neg hm]
    dsimp only
    rw [value_trimZeros]
    refine searchGrids_of (P := fun d => Rounds d.value m e) (fun d => rounds_of_readsBack hm) ?_
    -- The decimal that is cut off behind eighteen digits.
    have hclose := floorAt_close (ratio m e).1 (ratio m e).2
      (leadingExponent (ratio m e).1 (ratio m e).2 - (0 + 17 : ℕ))
    have hlead := h.ten_zpow_leadingExponent_le hm
    rw [ratio_eq_value] at hclose
    refine h.rounds hclose.1 (hclose.2.trans ?_)
    rw [zpow_sub₀ (by norm_num), zpow_natCast, Nat.zero_add]
    exact div_le_div_of_nonneg_right hlead (by positivity)

/-! ### The text -/

/-- The digits of a number with a point in front of its decimal places, if it has any. -/
def numeral (whole places : List Char) : List Char :=
  whole ++ if places = [] then [] else '.' :: places

/-- Digits that a point may stand among, some of them in front of it. -/
structure AreDigits (whole places : List Char) : Prop where
  /-- All are digits. -/
  digits : ∀ c ∈ whole ++ places, c.isDigit = true
  /-- There is one in front of the point. -/
  nonempty : whole ≠ []

/-- What the digits in front of the point and behind it spell. -/
def numeralValue (whole places : List Char) : ℚ :=
  Nat.ofDigitChars 10 (whole ++ places) 0 / 10 ^ places.length

theorem point_notMem_of_digits {cs : List Char} (h : ∀ c ∈ cs, c.isDigit = true) : '.' ∉ cs :=
  fun hmem => absurd (h '.' hmem) (by decide)

/-- A text of digits is cut at its point in one way. -/
theorem AreDigits.numeral_inj {whole places whole' places' : List Char}
    (h : AreDigits whole places) (h' : AreDigits whole' places')
    (heq : numeral whole places = numeral whole' places') : whole = whole' ∧ places = places' := by
  have hpoint : '.' ∉ whole :=
    fun hmem => point_notMem_of_digits h.digits (List.mem_append_left _ hmem)
  have hpoint' : '.' ∉ whole' :=
    fun hmem => point_notMem_of_digits h'.digits (List.mem_append_left _ hmem)
  rw [numeral, numeral] at heq
  -- a numeral has a point if and only if it has places
  by_cases hplaces : places = []
  · by_cases hplaces' : places' = []
    · rw [if_pos hplaces, if_pos hplaces', List.append_nil, List.append_nil] at heq
      exact ⟨heq, hplaces.trans hplaces'.symm⟩
    · rw [if_pos hplaces, if_neg hplaces', List.append_nil] at heq
      exact absurd (by rw [heq]; simp) hpoint
  · by_cases hplaces' : places' = []
    · rw [if_neg hplaces, if_pos hplaces', List.append_nil] at heq
      exact absurd (by rw [← heq]; simp) hpoint'
    · rw [if_neg hplaces, if_neg hplaces'] at heq
      have hpoint'' : '.' ∉ places :=
        fun hmem => point_notMem_of_digits h.digits (List.mem_append_right _ hmem)
      obtain ⟨hwhole, -, hrest⟩ := (List.append_cons_inj_of_notMem hpoint hpoint'').mp heq
      exact ⟨hwhole, hrest⟩

theorem zeros_digits (n : ℕ) : ∀ c ∈ zeros n, c.isDigit = true := by
  intro c hc
  rw [List.eq_of_mem_replicate hc]
  decide

theorem digitsOf_digits (n : ℕ) : ∀ c ∈ digitsOf n, c.isDigit = true := fun _ hc =>
  Nat.isDigit_of_mem_toDigits (by norm_num) (by norm_num) hc

theorem ofDigitChars_digitsOf (n : ℕ) : Nat.ofDigitChars 10 (digitsOf n) 0 = n :=
  Nat.ofDigitChars_toDigits (by norm_num) (by norm_num)

/-- Digits with a number of places behind the point, as they are written. -/
theorem exists_numeral_eq (n k : ℕ) :
    ∃ whole places, AreDigits whole places ∧
      (if (digitsOf n).length > k + 1 then
          (digitsOf n).take ((digitsOf n).length - (k + 1)) ++
            '.' :: (digitsOf n).drop ((digitsOf n).length - (k + 1))
        else '0' :: '.' :: zeros (k + 1 - (digitsOf n).length) ++ digitsOf n)
        = numeral whole places ∧
      numeralValue whole places = n / 10 ^ (k + 1) := by
  have hds := digitsOf_digits n
  by_cases hlong : (digitsOf n).length > k + 1
  · -- The point stands among the digits.
    have hplaces : ((digitsOf n).drop ((digitsOf n).length - (k + 1))).length = k + 1 := by
      rw [List.length_drop]
      omega
    have hne : (digitsOf n).drop ((digitsOf n).length - (k + 1)) ≠ [] :=
      List.ne_nil_of_length_pos (by omega)
    refine ⟨(digitsOf n).take ((digitsOf n).length - (k + 1)),
      (digitsOf n).drop ((digitsOf n).length - (k + 1)), ⟨?_, ?_⟩, ?_, ?_⟩
    · rwa [List.take_append_drop]
    · refine List.ne_nil_of_length_pos ?_
      rw [List.length_take]
      omega
    · rw [if_pos hlong, numeral, if_neg hne]
    · rw [numeralValue, List.take_append_drop, ofDigitChars_digitsOf, hplaces]
  · -- The point stands in front of the digits, and zeros between them.
    have hplaces : (zeros (k + 1 - (digitsOf n).length) ++ digitsOf n).length = k + 1 := by
      rw [List.length_append, zeros, List.length_replicate]
      omega
    have hne : zeros (k + 1 - (digitsOf n).length) ++ digitsOf n ≠ [] :=
      List.append_ne_nil_of_right_ne_nil _ Nat.toDigits_ne_nil
    refine ⟨['0'], zeros (k + 1 - (digitsOf n).length) ++ digitsOf n,
      ⟨?_, List.cons_ne_nil _ _⟩, ?_, ?_⟩
    · exact List.forall_mem_append.mpr
        ⟨zeros_digits 1, List.forall_mem_append.mpr ⟨zeros_digits _, hds⟩⟩
    · rw [if_neg hlong, numeral, if_neg hne]
      rfl
    · rw [numeralValue, hplaces, Nat.ofDigitChars_append, Nat.ofDigitChars_append, zeros,
        Nat.ofDigitChars_replicate_zero]
      rw [show Nat.ofDigitChars 10 ['0'] 0 = 0 from rfl, Nat.mul_zero, ofDigitChars_digitsOf]

/-- **The text of a double is made of digits**, and its value is that of the shortest decimal. -/
theorem exists_positional_eq (m : ℕ) (e : ℤ) :
    ∃ whole places, AreDigits whole places ∧
      (positional (.finite m e)).toList = numeral whole places ∧
      numeralValue whole places = (shortest m e).value := by
  rw [positional]
  dsimp only
  obtain ⟨digits, exponent⟩ := shortest m e
  -- a whole number gets zeros behind its digits, a fraction a point among them
  cases exponent with
  | ofNat k =>
    by_cases hzero : digits = 0
    · refine ⟨['0'], [], ⟨zeros_digits 1, List.cons_ne_nil _ _⟩, ?_, ?_⟩
      · dsimp only
        rw [if_pos hzero]
        rfl
      · rw [Decimal.value, hzero, Nat.cast_zero, zero_mul]
        decide +kernel
    · refine ⟨digitsOf digits ++ zeros k, [], ⟨?_, ?_⟩, ?_, ?_⟩
      · rw [List.append_nil]
        exact List.forall_mem_append.mpr ⟨digitsOf_digits digits, zeros_digits k⟩
      · exact List.append_ne_nil_of_left_ne_nil Nat.toDigits_ne_nil _
      · dsimp only
        rw [if_neg hzero, String.toList_ofList, numeral, if_pos rfl, List.append_nil]
      · rw [numeralValue, List.append_nil, Nat.ofDigitChars_append, ofDigitChars_digitsOf, zeros,
          Nat.ofDigitChars_replicate_zero, List.length_nil, pow_zero, div_one, Decimal.value,
          Int.ofNat_eq_natCast, zpow_natCast]
        push_cast
        exact mul_comm _ _
  | negSucc k =>
    obtain ⟨whole, places, hdigits, htext, hvalue⟩ := exists_numeral_eq digits k
    refine ⟨whole, places, hdigits, ?_, ?_⟩
    · rw [← htext]
      dsimp only
      split_ifs
      · exact String.toList_ofList
      · exact String.toList_ofList
    · rw [hvalue, Decimal.value, zpow_negSucc, div_eq_mul_inv]

/-- **The text of a double names it.** -/
theorem positional_injective {v w : Binary64} (hv : v.IsDouble) (hw : w.IsDouble)
    (h : v.positional = w.positional) : v = w := by
  cases v with
  | infinite => exact hv.elim
  | finite m e =>
    cases w with
    | infinite => exact hw.elim
    | finite m' e' =>
      obtain ⟨whole, places, hdigits, htext, hvalue⟩ := exists_positional_eq m e
      obtain ⟨whole', places', hdigits', htext', hvalue'⟩ := exists_positional_eq m' e'
      have hnumeral : numeral whole places = numeral whole' places' := by
        rw [← htext, ← htext', h]
      obtain ⟨rfl, rfl⟩ := hdigits.numeral_inj hdigits' hnumeral
      -- one decimal rounds to both, and a decimal rounds to one double only
      have hrounds := shortest_rounds hv
      have hrounds' := shortest_rounds hw
      rw [← hvalue] at hrounds
      rw [← hvalue'] at hrounds'
      have hnonneg : 0 ≤ numeralValue whole places := by
        rw [hvalue]
        exact Decimal.value_nonneg _
      obtain ⟨rfl, rfl⟩ := hrounds.unique hnonneg hrounds'
      rfl

end Binary64

end JsxWidgets
