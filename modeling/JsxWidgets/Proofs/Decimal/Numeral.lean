import JsxWidgets.Literal
import JsxWidgets.Proofs.Decimal.Positional

/-!
# The texts of JSON numbers

A number is written with a sign, digits, places behind a point and a power of ten (`Numeral`), and
its text tells them apart (`Numeral.chars_injective`). An integer has neither places nor a power.
Any other number has one of them, and the value of its digits is that of the shortest decimal that
names its magnitude (`Binary64.exists_exponential_eq`). So the text of a number names it, and tells
whether it is an integer.
-/

namespace JsxWidgets

/-- **A number as it is written.** -/
structure Numeral where
  /-- Whether there is a sign. -/
  negative : Bool
  /-- The digits in front of the point. -/
  whole : List Char
  /-- The digits behind the point; without any there is no point. -/
  places : List Char
  /-- The power of ten, if there is one. -/
  power : Option ℤ

namespace Numeral

/-- A sign, if there is one. -/
def sign (negative : Bool) : List Char := if negative then ['-'] else []

/-- A power of ten, if there is one. -/
def powerChars (power : Option ℤ) : List Char :=
  power.elim [] fun p => 'e' :: (toString p).toList

/-- The text of a numeral. -/
def chars (n : Numeral) : List Char :=
  sign n.negative ++ (Binary64.numeral n.whole n.places ++ powerChars n.power)

/-- All digits of a numeral are digits, and the first of them stands in front of the point. -/
def WellFormed (n : Numeral) : Prop := Binary64.AreDigits n.whole n.places

/-- The value of a numeral without its sign. -/
def magnitude (n : Numeral) : ℚ :=
  Binary64.numeralValue n.whole n.places * 10 ^ n.power.getD 0

/-- The numeral of an integer. -/
def ofInt (n : ℤ) : Numeral := ⟨decide (n < 0), Binary64.digitsOf n.natAbs, [], none⟩

/-! ### Taking a text apart -/

/-- A sign is told from what follows if that has no sign of its own in front. -/
theorem sign_append_inj {b b' : Bool} {cs cs' : List Char} (h : cs.head? ≠ some '-')
    (h' : cs'.head? ≠ some '-') (heq : sign b ++ cs = sign b' ++ cs') : b = b' ∧ cs = cs' := by
  -- a minus sign in one text only would have to start the digits of the other
  cases b with
  | false =>
    cases b' with
    | false => exact ⟨rfl, heq⟩
    | true =>
      rw [show cs = '-' :: cs' from heq] at h
      exact absurd rfl h
  | true =>
    cases b' with
    | false =>
      rw [show cs' = '-' :: cs from heq.symm] at h'
      exact absurd rfl h'
    | true => exact ⟨rfl, (List.cons.inj heq).2⟩

theorem head?_ne_of_digits {cs : List Char} (h : ∀ c ∈ cs, c.isDigit = true) :
    cs.head? ≠ some '-' := by
  intro hhead
  exact absurd (h '-' (List.mem_of_head? hhead)) (by decide)

theorem notMem_numeral {c : Char} {whole places : List Char}
    (h : Binary64.AreDigits whole places) (hdigit : c.isDigit = false) (hpoint : c ≠ '.') :
    c ∉ Binary64.numeral whole places := by
  have hnot : ∀ d ∈ whole ++ places, d ≠ c := by
    rintro d hd rfl
    rw [h.digits d hd] at hdigit
    cases hdigit
  intro hmem
  rw [Binary64.numeral, List.mem_append] at hmem
  rcases hmem with hwhole | hplaces
  · exact hnot c (List.mem_append_left _ hwhole) rfl
  -- the point is written only before places
  · split_ifs at hplaces
    · cases hplaces
    · rcases List.mem_cons.mp hplaces with rfl | hplaces
      · exact hpoint rfl
      · exact hnot c (List.mem_append_right _ hplaces) rfl

/-! ### Integers -/

theorem toList_toString (n : ℤ) :
    (toString n).toList = sign (decide (n < 0)) ++ Binary64.digitsOf n.natAbs := by
  cases n with
  | ofNat n => exact Nat.toList_repr
  | negSucc n =>
    rw [decide_eq_true (Int.negSucc_lt_zero n)]
    change ("-" ++ (n + 1).repr).toList = _
    rw [String.toList_append, Nat.toList_repr]
    rfl

theorem toString_injective {n n' : ℤ} (h : toString n = toString n') : n = n' := by
  have htext := congrArg String.toList h
  rw [toList_toString, toList_toString] at htext
  obtain ⟨hsign, hdigits⟩ := sign_append_inj
    (head?_ne_of_digits (Binary64.digitsOf_digits _))
    (head?_ne_of_digits (Binary64.digitsOf_digits _)) htext
  have habs : n.natAbs = n'.natAbs := by
    rw [← Binary64.ofDigitChars_digitsOf n.natAbs, hdigits, Binary64.ofDigitChars_digitsOf]
  have hneg : n < 0 ↔ n' < 0 := decide_eq_decide.mp hsign
  omega

theorem e_notMem_toString (n : ℤ) : 'e' ∉ (toString n).toList := by
  rw [toList_toString, List.mem_append]
  rintro (hsign | hdigits)
  · cases hn : decide (n < 0) <;> simp [hn, sign] at hsign
  · exact absurd (Binary64.digitsOf_digits _ _ hdigits) (by decide)

theorem ofInt_wellFormed (n : ℤ) : (ofInt n).WellFormed := by
  refine ⟨?_, Nat.toDigits_ne_nil⟩
  rw [ofInt, List.append_nil]
  exact Binary64.digitsOf_digits _

theorem chars_ofInt (n : ℤ) : (ofInt n).chars = (toString n).toList := by
  rw [toList_toString, chars, ofInt, powerChars, Binary64.numeral, if_pos rfl, Option.elim_none,
    List.append_nil, List.append_nil]

/-! ### A text has one numeral -/

theorem powerChars_injective {p p' : Option ℤ} (h : powerChars p = powerChars p') : p = p' := by
  cases p with
  | none =>
    cases p' with
    | none => rfl
    | some q => cases h
  | some q =>
    cases p' with
    | none => cases h
    | some q' =>
      have htext : (toString q).toList = (toString q').toList := (List.cons.inj h).2
      exact congrArg some (toString_injective (String.toList_inj.mp htext))

/-- A power behind something without an `e` is told from it. -/
theorem append_powerChars_inj {cs cs' : List Char} {p p' : Option ℤ} (h : 'e' ∉ cs) (h' : 'e' ∉ cs')
    (heq : cs ++ powerChars p = cs' ++ powerChars p') : cs = cs' ∧ p = p' := by
  -- the first `e` of a text is where its power starts
  have hsplit : cs = cs' ∧ powerChars p = powerChars p' := by
    cases p with
    | none =>
      cases p' with
      | none => exact ⟨by simpa [powerChars] using heq, rfl⟩
      | some q =>
        rw [powerChars, Option.elim_none, List.append_nil] at heq
        exact absurd (by rw [heq]; simp [powerChars]) h
    | some q =>
      cases p' with
      | none =>
        rw [powerChars, powerChars, Option.elim_none, List.append_nil] at heq
        exact absurd (by rw [← heq]; simp) h'
      | some q' =>
        obtain ⟨hcs, -, hrest⟩ :=
          (List.append_cons_inj_of_notMem h (e_notMem_toString q)).mp heq
        exact ⟨hcs, congrArg (List.cons 'e') hrest⟩
  exact ⟨hsplit.1, powerChars_injective hsplit.2⟩

/-- **A text is that of one numeral.** -/
theorem chars_injective {n n' : Numeral} (h : n.WellFormed) (h' : n'.WellFormed)
    (heq : n.chars = n'.chars) : n = n' := by
  -- a numeral starts with a digit, so the sign can be split off
  have hhead : ∀ n : Numeral, n.WellFormed →
      (Binary64.numeral n.whole n.places ++ powerChars n.power).head? ≠ some '-' := by
    intro n hn
    obtain ⟨c, rest, hwhole⟩ := List.exists_cons_of_ne_nil hn.nonempty
    have hc : c.isDigit = true := hn.digits c (by simp [hwhole])
    rw [Binary64.numeral, hwhole, List.cons_append, List.cons_append, List.head?_cons]
    rintro ⟨⟩
    cases hc
  obtain ⟨hsign, hrest⟩ := sign_append_inj (hhead n h) (hhead n' h') heq
  obtain ⟨hnumeral, hpower⟩ := append_powerChars_inj (notMem_numeral h rfl (by decide))
    (notMem_numeral h' rfl (by decide)) hrest
  obtain ⟨hwhole, hplaces⟩ := Binary64.AreDigits.numeral_inj h h' hnumeral
  obtain ⟨negative, whole, places, power⟩ := n
  obtain ⟨negative', whole', places', power'⟩ := n'
  dsimp only at hsign hwhole hplaces hpower
  rw [hsign, hwhole, hplaces, hpower]

theorem ofInt_injective {n n' : ℤ} (h : ofInt n = ofInt n') : n = n' := by
  have hchars := congrArg chars h
  rw [chars_ofInt, chars_ofInt] at hchars
  exact toString_injective (String.toList_inj.mp hchars)

end Numeral

/-! ### Other numbers -/

namespace Binary64

open Numeral

/-- Digits with a point among them have places behind it. -/
theorem AreDigits.places_ne_nil {whole places : List Char} (h : AreDigits whole places)
    (hpoint : '.' ∈ numeral whole places) : places ≠ [] := by
  rintro rfl
  rw [numeral, if_pos rfl, List.append_nil] at hpoint
  exact point_notMem_of_digits h.digits (by rwa [List.append_nil])

/-- Digits with some places behind the point, as they are written without a power of ten. -/
theorem exists_numeral_places (n k : ℕ) {text : List Char}
    (htext : text = if (digitsOf n).length > k + 1 then
        (digitsOf n).take ((digitsOf n).length - (k + 1)) ++
          '.' :: (digitsOf n).drop ((digitsOf n).length - (k + 1))
      else '0' :: '.' :: zeros (k + 1 - (digitsOf n).length) ++ digitsOf n) :
    ∃ whole places, AreDigits whole places ∧ places ≠ [] ∧ text = numeral whole places ∧
      numeralValue whole places = n * 10 ^ Int.negSucc k := by
  obtain ⟨whole, places, hdigits, heq, hvalue⟩ := exists_numeral_eq n k
  have hpoint : '.' ∈ numeral whole places := by
    rw [← heq]
    split_ifs <;> simp
  refine ⟨whole, places, hdigits, hdigits.places_ne_nil hpoint, htext.trans heq, ?_⟩
  rw [hvalue, zpow_negSucc, div_eq_mul_inv]

/-- A whole number is written with one zero behind the point. -/
theorem numeralValue_whole (n k : ℕ) : numeralValue (digitsOf n ++ zeros k) ['0'] = n * 10 ^ k := by
  have hvalue : Nat.ofDigitChars 10 (digitsOf n ++ zeros k ++ zeros 1) 0 = 10 * (10 ^ k * n) := by
    rw [Nat.ofDigitChars_append, Nat.ofDigitChars_append, ofDigitChars_digitsOf, zeros, zeros,
      Nat.ofDigitChars_replicate_zero, Nat.ofDigitChars_replicate_zero, pow_one]
  rw [numeralValue, show ['0'] = zeros 1 from rfl, hvalue, zeros, List.length_replicate, pow_one]
  push_cast
  rw [mul_div_cancel_left₀ _ (by norm_num)]
  exact mul_comm _ _

/-- With a power of ten, the point stands behind the first digit. -/
theorem numeralValue_scientific {n : ℕ} {c : Char} {rest : List Char} (h : digitsOf n = c :: rest)
    (exponent : ℤ) :
    numeralValue [c] rest * 10 ^ (exponent + (digitsOf n).length - 1) = n * 10 ^ exponent := by
  have hvalue : Nat.ofDigitChars 10 ([c] ++ rest) 0 = n := by
    rw [List.singleton_append, ← h, ofDigitChars_digitsOf]
  have hpower : exponent + ((digitsOf n).length : ℤ) - 1 = rest.length + exponent := by
    rw [h, List.length_cons]
    push_cast
    ring
  rw [numeralValue, hvalue, hpower, zpow_add₀ (by norm_num), zpow_natCast, ← mul_assoc,
    div_mul_cancel₀ _ (by positivity)]

/-- **The text of a magnitude** has a point or a power of ten, and its value is that of the shortest
decimal. -/
theorem exists_exponential_eq (m : ℕ) (e : ℤ) :
    ∃ whole places power, AreDigits whole places ∧ (places ≠ [] ∨ power ≠ none) ∧
      (exponential (.finite m e)).toList = numeral whole places ++ powerChars power ∧
      numeralValue whole places * 10 ^ power.getD 0 = (shortest m e).value := by
  rw [exponential]
  dsimp only
  obtain ⟨digits, exponent⟩ := shortest m e
  rw [Decimal.value]
  dsimp only
  have hds := digitsOf_digits digits
  -- A magnitude below one is no whole number.
  have hplaces : ¬ (exponent ≥ 0 ∧ exponent + (digitsOf digits).length ≤ 16) →
      exponent + (digitsOf digits).length ≤ 16 → ∃ k, exponent = Int.negSucc k := by
    intro hwhole hsize
    cases exponent with
    | ofNat k => exact absurd ⟨Int.natCast_nonneg k, hsize⟩ hwhole
    | negSucc k => exact ⟨k, rfl⟩
  split_ifs with hzero hwhole hamong hbelow
  · refine ⟨['0'], ['0'], none, ⟨zeros_digits 2, List.cons_ne_nil _ _⟩,
      Or.inl (List.cons_ne_nil _ _), rfl, ?_⟩
    rw [hzero, Nat.cast_zero, zero_mul]
    decide +kernel
  · obtain ⟨k, rfl⟩ := Int.eq_ofNat_of_zero_le hwhole.1
    refine ⟨digitsOf digits ++ zeros k, ['0'], none, ⟨?_, ?_⟩, Or.inl (List.cons_ne_nil _ _), ?_,
      ?_⟩
    · exact List.forall_mem_append.mpr
        ⟨List.forall_mem_append.mpr ⟨hds, zeros_digits k⟩, zeros_digits 1⟩
    · exact List.append_ne_nil_of_left_ne_nil Nat.toDigits_ne_nil _
    · rw [String.toList_ofList, powerChars, Option.elim_none, List.append_nil, numeral,
        if_neg (List.cons_ne_nil _ _), Int.toNat_natCast]
    · rw [numeralValue_whole, Option.getD_none, zpow_zero, mul_one, zpow_natCast]
  · obtain ⟨k, rfl⟩ := hplaces hwhole hamong.2
    obtain ⟨whole, places, hdigits, hne, htext, hvalue⟩ := exists_numeral_places digits k rfl
    refine ⟨whole, places, none, hdigits, Or.inl hne, ?_, ?_⟩
    · have hlength : (Int.negSucc k + (digitsOf digits).length).toNat
          = (digitsOf digits).length - (k + 1) := by omega
      rw [if_pos (by omega)] at htext
      rw [String.toList_ofList, powerChars, Option.elim_none, List.append_nil, ← htext, hlength]
    · rw [hvalue, Option.getD_none, zpow_zero, mul_one]
  · obtain ⟨k, rfl⟩ := hplaces hwhole (by omega)
    obtain ⟨whole, places, hdigits, hne, htext, hvalue⟩ := exists_numeral_places digits k rfl
    refine ⟨whole, places, none, hdigits, Or.inl hne, ?_, ?_⟩
    · have hlength : (-(Int.negSucc k + (digitsOf digits).length)).toNat
          = k + 1 - (digitsOf digits).length := by omega
      rw [if_neg (by omega)] at htext
      rw [String.toList_ofList, powerChars, Option.elim_none, List.append_nil, ← htext, hlength]
    · rw [hvalue, Option.getD_none, zpow_zero, mul_one]
  · obtain ⟨c, rest, hcons⟩ := List.exists_cons_of_ne_nil (Nat.toDigits_ne_nil (n := digits))
    refine ⟨[c], rest, some (exponent + (digitsOf digits).length - 1), ⟨?_, List.cons_ne_nil _ _⟩,
      Or.inr (Option.some_ne_none _), ?_, numeralValue_scientific hcons exponent⟩
    · rw [List.singleton_append]
      exact hcons ▸ hds
    · generalize exponent + ((digitsOf digits).length : ℤ) - 1 = power
      split
      next d hsingle =>
        obtain ⟨rfl, rfl⟩ := List.cons.inj (hcons.symm.trans hsingle)
        simp [numeral, powerChars]
      next d more hmore hseveral =>
        obtain ⟨rfl, rfl⟩ := List.cons.inj (hcons.symm.trans hseveral)
        obtain ⟨d, more, rfl⟩ := List.exists_cons_of_ne_nil (hmore ·)
        simp [numeral, powerChars]
      next hnil => exact absurd (hcons.symm.trans hnil) (List.cons_ne_nil c rest)

end Binary64

/-! ### JSON numbers -/

theorem Numeral.magnitude_nonneg (n : Numeral) : 0 ≤ n.magnitude := by
  rw [magnitude, Binary64.numeralValue]
  positivity

namespace Literal

/-- **A numeral stands for a number**: an integer is written with its digits alone, and what any
other number is written with is rounded to its magnitude. -/
def IsWrittenAs (n : Numeral) : Literal → Prop
  | .int value => n = .ofInt value
  | .real negative (.finite m e) =>
    n.WellFormed ∧ n.negative = negative ∧ (n.places ≠ [] ∨ n.power ≠ none) ∧
      Binary64.Rounds n.magnitude m e
  | _ => False

theorem isWrittenAs_wellFormed {n : Numeral} {v : Literal} (h : v.IsWrittenAs n) :
    n.WellFormed := by
  cases v with
  | int value => exact h ▸ Numeral.ofInt_wellFormed value
  | real negative magnitude =>
    cases magnitude with
    | finite m e => exact h.1
    | infinite => exact h.elim
  | null | bool | text | array | object => exact h.elim

/-- **A numeral stands for one number.** -/
theorem IsWrittenAs.unique {n : Numeral} {v w : Literal} (hv : v.IsWrittenAs n)
    (hw : w.IsWrittenAs n) : v = w := by
  match v, w, hv, hw with
  | .int a, .int b, hv, hw => exact congrArg int (Numeral.ofInt_injective (hv.symm.trans hw))
  | .int a, .real negative (.finite m e), hv, hw =>
    -- An integer has neither places nor a power of ten.
    rw [show n = .ofInt a from hv] at hw
    exact absurd hw.2.2.1 (by simp [Numeral.ofInt])
  | .real negative (.finite m e), .int b, hv, hw =>
    rw [show n = .ofInt b from hw] at hv
    exact absurd hv.2.2.1 (by simp [Numeral.ofInt])
  | .real negative (.finite m e), .real negative' (.finite m' e'), hv, hw =>
    obtain ⟨rfl, rfl⟩ := hv.2.2.2.unique n.magnitude_nonneg hw.2.2.2
    rw [← hv.2.1, ← hw.2.1]

/-- An integer is written with its digits. -/
theorem exists_numeral_int (value : ℤ) :
    ∃ n, (int value).IsWrittenAs n ∧ (toString value).toList = n.chars :=
  ⟨.ofInt value, rfl, (Numeral.chars_ofInt value).symm⟩

/-- **The text of any other number** is a numeral that stands for it. -/
theorem exists_numeral_real (negative : Bool) {v : Binary64} (hv : v.IsDouble) :
    ∃ n, (real negative v).IsWrittenAs n ∧ (realText negative v).toList = n.chars := by
  cases v with
  | infinite => exact hv.elim
  | finite m e =>
    obtain ⟨whole, places, power, hdigits, hmarked, htext, hvalue⟩ :=
      Binary64.exists_exponential_eq m e
    refine ⟨⟨negative, whole, places, power⟩, ⟨hdigits, rfl, hmarked, ?_⟩, ?_⟩
    · rw [Numeral.magnitude, hvalue]
      exact Binary64.shortest_rounds hv
    · rw [realText, String.toList_append, htext, Numeral.chars]
      cases negative <;> rfl

end Literal

end JsxWidgets
