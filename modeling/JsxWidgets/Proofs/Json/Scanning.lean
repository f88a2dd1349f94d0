import Mathlib.Data.List.TakeWhile
import JsxWidgets.Json.Container
import JsxWidgets.Proofs.Json.Spelling

/-!
# Reading tokens of JSON

What the readers of blanks, signs, words, numerals and texts do on a text that starts with what they
read. Each of them takes exactly this off the front (`numeral_run`, `inside_run`).

A numeral has no end of its own, so what stands behind it must not go on with it (`Stops`).
-/

namespace JsxWidgets.Json

variable {α β : Type} {cs rest : List Char}

/-! ### Steps -/

/-- A step that succeeds hands its value on. -/
theorem run_bind_ok {r : Reader α} {f : α → Reader β} {a : α} (h : r.run cs = .ok (a, rest)) :
    (r >>= f).run cs = (f a).run rest := by
  rw [StateT.run_bind, h]
  rfl

/-- A step that fails is the last one. -/
theorem run_bind_error {r : Reader α} {f : α → Reader β} {p : Problem}
    (h : r.run cs = .error p) : (r >>= f).run cs = .error p := by
  rw [StateT.run_bind, h]
  rfl

/-- Nobody asks for the value. -/
theorem run_discard {r : Reader α} {a : α} (h : r.run cs = .ok (a, rest)) :
    (discard r).run cs = .ok ((), rest) := by
  change (r >>= fun _ => pure ()).run cs = _
  rw [run_bind_ok h]
  rfl

/-- Asking for the text gives it, and passes nothing. -/
theorem get_run : (get : Reader (List Char)).run cs = .ok (cs, cs) := rfl

/-- Passing a character leaves what stands behind it. -/
theorem pass_run {c : Char} : pass.run (c :: rest) = .ok ((), rest) := rfl

/-- Taking a character gives it and leaves what stands behind it. -/
theorem take_run {c : Char} : take.run (c :: rest) = .ok (c, rest) := rfl

/-- The next sign is found behind a gap. -/
theorem front_run {gap : List Char} {c : Char} (hgap : IsGap gap) (hc : isBlank c = false) :
    front.run (gap ++ c :: rest) = .ok (c, c :: rest) := by
  have hdrop : (gap ++ c :: rest).dropWhile isBlank = c :: rest := by
    rw [List.dropWhile_append_of_pos hgap, List.dropWhile_cons_of_neg (by simp [hc])]
  have hnext : next?.run (gap ++ c :: rest) = .ok (some c, c :: rest) := by
    change Except.ok (((gap ++ c :: rest).dropWhile isBlank).head?, _) = _
    rw [hdrop]
    rfl
  rw [front, run_bind_ok hnext]
  rfl

/-- A sign that is asked for is passed together with the gap in front of it. -/
theorem sign_run {gap : List Char} {c : Char} (hgap : IsGap gap) (hc : isBlank c = false) :
    (sign c).run (gap ++ c :: rest) = .ok ((), rest) := by
  rw [sign, run_bind_ok (front_run hgap hc)]
  simp only [if_true]
  rfl

/-- A word that is asked for is passed. -/
theorem expect_run (word : List Char) : (expect word).run (word ++ rest) = .ok ((), rest) := by
  induction word with
  | nil => rfl
  | cons c word ih =>
    rw [expect, List.cons_append, run_bind_ok take_run]
    simp only [if_true]
    exact ih

/-! ### Numerals -/

/-- What may stand behind a numeral: nothing that would go on with it. -/
def Stops (cs : List Char) : Prop :=
  ∀ c ∈ cs.head?, Text.isAsciiDigit c = false ∧ c ≠ '.' ∧ c ≠ 'e' ∧ c ≠ 'E'

/-- The digits in front of something else. -/
theorem digits_run {ds : List Char} (hds : ∀ c ∈ ds, Text.isAsciiDigit c = true)
    (hrest : ∀ c ∈ rest.head?, Text.isAsciiDigit c = false) :
    digits.run (ds ++ rest) = .ok (ds, rest) := by
  have hsplit : rest.takeWhile Text.isAsciiDigit = [] ∧
      rest.dropWhile Text.isAsciiDigit = rest := by
    cases rest with
    | nil => exact ⟨rfl, rfl⟩
    | cons c rest =>
      have hc := Bool.eq_false_iff.mp (hrest c rfl)
      exact ⟨List.takeWhile_cons_of_neg hc, List.dropWhile_cons_of_neg hc⟩
  change Except.ok ((ds ++ rest).takeWhile Text.isAsciiDigit,
    (ds ++ rest).dropWhile Text.isAsciiDigit) = _
  rw [List.takeWhile_append_of_pos hds, List.dropWhile_append_of_pos hds, hsplit.1, hsplit.2,
    List.append_nil]

/-- Digits are read up to where they stop, if there are any. -/
theorem someDigits_run {ds : List Char} (hds : AreDigits ds)
    (hrest : ∀ c ∈ rest.head?, Text.isAsciiDigit c = false) (atEnd : Problem) :
    (someDigits atEnd).run (ds ++ rest) = .ok (ds, rest) := by
  rw [someDigits, run_bind_ok (digits_run hds.digits hrest),
    List.isEmpty_eq_false_iff.mpr hds.ne_nil]
  rfl

/-- The digits in front of a point are read, provided that no zero leads them. -/
theorem wholePart_run {ds : List Char} (hds : AreDigits ds)
    (hzeros : ds.head? = some '0' → ds = ['0'])
    (hrest : ∀ c ∈ rest.head?, Text.isAsciiDigit c = false) (atEnd : Problem) :
    (wholePart atEnd).run (ds ++ rest) = .ok (ds, rest) := by
  rw [wholePart, run_bind_ok (someDigits_run hds hrest atEnd)]
  split
  next c more => cases hzeros rfl
  next => rfl

/-- Places behind a point are read if there is a point, and else nothing is. -/
theorem fraction?_run {places : Option (List Char)} (hplaces : ∀ ds ∈ places, AreDigits ds)
    (hrest : ∀ c ∈ rest.head?, Text.isAsciiDigit c = false ∧ c ≠ '.') (atEnd : Problem) :
    (fraction? atEnd).run (NumeralText.fractionChars places ++ rest) = .ok (places, rest) := by
  rw [fraction?, run_bind_ok get_run]
  cases places with
  | none =>
    have hchars : NumeralText.fractionChars none ++ rest = rest := rfl
    rw [hchars]
    -- what follows the number does not start with a point
    split
    next hpoint => exact absurd rfl (hrest '.' hpoint).2
    next => rfl
  | some ds =>
    have hdigits := someDigits_run (hplaces ds rfl) (fun c hc => (hrest c hc).1) atEnd
    change (pass >>= fun _ => someDigits atEnd >>= fun ds => pure (some ds)).run
      ('.' :: (ds ++ rest)) = _
    rw [run_bind_ok pass_run, run_bind_ok hdigits]
    rfl

/-- No digit is a sign. -/
theorem ne_sign_of_digit {c : Char} (hc : Text.isAsciiDigit c = true) : c ≠ '+' ∧ c ≠ '-' := by
  constructor <;> rintro rfl <;> cases hc

/-- No power is read where none is written. -/
theorem exponent?_absent (hrest : Stops rest) (atEnd : Problem) :
    (exponent? atEnd).run rest = .ok (none, rest) := by
  rw [exponent?, run_bind_ok get_run]
  split
  next c hc =>
    obtain ⟨-, -, he, hE⟩ := hrest c hc
    simp only [he, hE]
    rfl
  next => rfl

/-- A power is read where one is written. -/
theorem exponent?_present {p : PowerText} (hp : p.WellFormed)
    (hrest : ∀ c ∈ rest.head?, Text.isAsciiDigit c = false) (atEnd : Problem) :
    (exponent? atEnd).run (p.chars ++ rest) = .ok (some p.value, rest) := by
  obtain ⟨letter, sign, ds⟩ := p
  obtain ⟨hletter, hsign, hds⟩ := hp
  have hdigits := someDigits_run hds hrest atEnd
  have hmark : (decide (letter = 'e') || decide (letter = 'E')) = true := by
    rcases hletter with rfl | rfl <;> rfl
  have hchars : PowerText.chars ⟨letter, sign, ds⟩ ++ rest
      = letter :: (sign.toList ++ (ds ++ rest)) := by
    change letter :: ((sign.toList ++ ds) ++ rest) = _
    rw [List.append_assoc]
  rw [hchars, exponent?, run_bind_ok get_run]
  simp only [List.head?_cons, hmark, if_true]
  rw [run_bind_ok pass_run, run_bind_ok get_run]
  -- The sign, if there is one, is passed in front of the digits.
  cases sign with
  | none =>
    obtain ⟨d, more, rfl⟩ := List.exists_cons_of_ne_nil hds.ne_nil
    obtain ⟨hplus, hminus⟩ := ne_sign_of_digit (hds.digits d List.mem_cons_self)
    have hnone : (decide (some d = some '+') || decide (some d = some '-')) = false := by
      simp [hplus, hminus]
    have hempty : (none : Option Char).toList ++ (d :: more ++ rest) = d :: more ++ rest := rfl
    change (if (decide (some d = some '+') || decide (some d = some '-')) = true then _ else _
      : Reader _).run _ = _
    rw [hnone, if_neg Bool.false_ne_true, hempty, run_bind_ok hdigits]
    have hpositive : (d :: more ++ rest).head? ≠ some '-' := fun h => hminus (Option.some.inj h)
    rw [if_neg hpositive]
    rfl
  | some c =>
    have hsome : (decide (some c = some '+') || decide (some c = some '-')) = true := by
      rcases hsign c rfl with rfl | rfl <;> rfl
    change (if (decide (some c = some '+') || decide (some c = some '-')) = true then _ else _
      : Reader _).run _ = _
    rw [hsome, if_pos rfl]
    change (pass >>= fun _ => _).run (c :: (ds ++ rest)) = _
    rw [run_bind_ok pass_run, run_bind_ok hdigits]
    rfl

/-- So a power is read as it is written, or none. -/
theorem exponent?_run {power : Option PowerText} (hpower : ∀ p ∈ power, p.WellFormed)
    (hrest : Stops rest) (atEnd : Problem) :
    (exponent? atEnd).run (NumeralText.powerChars power ++ rest)
      = .ok (power.map PowerText.value, rest) := by
  cases power with
  | none => exact exponent?_absent hrest atEnd
  | some p => exact exponent?_present (hpower p rfl) (fun c hc => (hrest c hc).1) atEnd

/-- Steps that take in a digit each make a number of the digits. -/
theorem foldlM_digits {step : Nat → Char → Option Nat}
    (hstep : ∀ n c, Text.isAsciiDigit c = true → step n c = some (10 * n + (c.toNat - 48)))
    {ds : List Char} (hds : ∀ c ∈ ds, Text.isAsciiDigit c = true) (n : Nat) :
    ds.foldlM step n = some (Nat.ofDigitChars 10 ds n) := by
  induction ds generalizing n with
  | nil => rfl
  | cons c ds ih =>
    obtain ⟨hc, hrest⟩ := List.forall_mem_cons.mp hds
    rw [List.foldlM_cons, hstep n c hc, Nat.ofDigitChars_cons]
    exact ih hrest _

/-- The digits of a number are read from the left. -/
theorem numeral?_ten {ds : List Char} (hds : ∀ c ∈ ds, Text.isAsciiDigit c = true) :
    Text.numeral? 10 ds = some (Nat.ofDigitChars 10 ds 0) := by
  rw [Text.numeral?]
  refine foldlM_digits (fun n c hc => ?_) hds 0
  have hrange : '0' ≤ c ∧ c ≤ '9' := by simpa [Text.isAsciiDigit] using hc
  have hdigit : Text.hexDigit? c = some (c.toNat - 48) := if_pos hrange
  have hsmall : c.toNat - 48 < 10 := by
    have hle : c.toNat ≤ 57 := hrange.2
    omega
  simp only [hdigit, hsmall, if_true, Nat.mul_comm 10]

/-- What follows a part of a numeral is no further digit, and what follows the whole part and the
fraction is no point. -/
theorem stops_powerChars (power : Option PowerText) (hpower : ∀ p ∈ power, p.WellFormed)
    (hrest : Stops rest) : ∀ c ∈ (NumeralText.powerChars power ++ rest).head?,
      Text.isAsciiDigit c = false ∧ c ≠ '.' := by
  cases power with
  | none => exact fun c hc => ⟨(hrest c hc).1, (hrest c hc).2.1⟩
  | some p =>
    intro c hc
    obtain rfl : p.letter = c := Option.some.inj hc
    rcases (hpower p rfl).letter with h | h <;> rw [h] <;> decide

/-- The digits in front stop at the point, or at what follows. -/
theorem stops_fractionChars (places : Option (List Char))
    (hrest : ∀ c ∈ rest.head?, Text.isAsciiDigit c = false) :
    ∀ c ∈ (NumeralText.fractionChars places ++ rest).head?, Text.isAsciiDigit c = false := by
  cases places with
  | none => exact hrest
  | some ds =>
    intro c hc
    obtain rfl : '.' = c := Option.some.inj hc
    rfl

/-- The digits of a numeral are those in front of the point and those behind. -/
theorem mem_digits {whole : List Char} {places : Option (List Char)} (hwhole : AreDigits whole)
    (hplaces : ∀ ds ∈ places, AreDigits ds) :
    ∀ c ∈ whole ++ places.getD [], Text.isAsciiDigit c = true := by
  intro c hc
  rcases List.mem_append.mp hc with hc | hc
  · exact hwhole.digits c hc
  · cases places with
    | none => cases hc
    | some ds => exact (hplaces ds rfl).digits c hc

/-- **A numeral is read to its end.** -/
theorem numeral_run {t : NumeralText} (ht : t.WellFormed) (hrest : Stops rest) (atEnd : Problem) :
    (numeral atEnd).run (t.chars ++ rest) = .ok (t.numeral, rest) := by
  obtain ⟨negative, whole, places, power⟩ := t
  obtain ⟨hwhole, hzeros, hplaces, hpower⟩ := ht
  have hbehindPlaces := stops_powerChars power hpower hrest
  have hbehindWhole := stops_fractionChars places fun c hc => (hbehindPlaces c hc).1
  have hdigits := numeral?_ten (mem_digits hwhole hplaces)
  -- Behind the sign, the three parts are read one after the other.
  have hparts : ∀ sign : Bool, (wholePart atEnd >>= fun whole => fraction? atEnd >>= fun places =>
      exponent? atEnd >>= fun power => pure (Numeral.mk sign
        ((Text.numeral? 10 (whole ++ places.getD [])).getD 0)
        (power.getD 0 - (places.getD []).length) (places.isNone && power.isNone))).run
      (whole ++ (NumeralText.fractionChars places ++ (NumeralText.powerChars power ++ rest)))
      = .ok (NumeralText.numeral ⟨sign, whole, places, power⟩, rest) := by
    intro sign
    rw [run_bind_ok (wholePart_run hwhole hzeros hbehindWhole atEnd),
      run_bind_ok (fraction?_run hplaces hbehindPlaces atEnd),
      run_bind_ok (exponent?_run hpower hrest atEnd), hdigits, NumeralText.numeral,
      Option.isNone_map]
    rfl
  have hchars : NumeralText.chars ⟨negative, whole, places, power⟩ ++ rest
      = NumeralText.signChars negative ++ (whole ++ (NumeralText.fractionChars places
          ++ (NumeralText.powerChars power ++ rest))) := by
    simp only [NumeralText.chars, List.append_assoc]
  rw [hchars, numeral, run_bind_ok get_run]
  cases negative with
  | true =>
    change (pass >>= fun _ => _).run ('-' :: (whole ++ _)) = _
    rw [run_bind_ok pass_run]
    exact hparts true
  | false =>
    obtain ⟨d, more, rfl⟩ := List.exists_cons_of_ne_nil hwhole.ne_nil
    have hsign : d ≠ '-' := (ne_sign_of_digit (hwhole.digits d List.mem_cons_self)).2
    have hnone : decide (some d = some '-') = false :=
      decide_eq_false fun h => hsign (Option.some.inj h)
    change (if some d = some '-' then _ else _ : Reader _).run (d :: more ++ _) = _
    rw [if_neg (of_decide_eq_false hnone)]
    exact (hparts (decide (some d = some '-'))).trans (by rw [hnone])

/-! ### Texts -/

/-- Four digits give the unit that they spell. -/
theorem unit_run {ds : List Char} {n : Nat} (h : SpellsUnit ds n) :
    unit.run (ds ++ rest) = .ok (n, rest) := by
  obtain ⟨hlength, hvalue⟩ := h
  have htake : (ds ++ rest).take 4 = ds := by rw [← hlength, List.take_left]
  have hdrop : (ds ++ rest).drop 4 = rest := by rw [← hlength, List.drop_left]
  have hreach : ¬ reach (ds ++ rest) < 4 := by
    rw [reach, htake]
    match ds, hlength with
    | [a, b, c, d], _ =>
      have hsizes := And.intro (And.intro a.utf8Size_pos b.utf8Size_pos)
        (And.intro c.utf8Size_pos d.utf8Size_pos)
      simp only [List.foldl_cons, List.foldl_nil]
      omega
  rw [unit, run_bind_ok get_run]
  simp only [hreach, if_false, htake, hvalue, hdrop]
  rfl

/-- A short escape gives its character. -/
theorem escape_short_run {e c : Char} (h : (e, c) ∈ shortEscapes) (paired : Bool) :
    (escape paired).run (e :: rest) = .ok ([c], rest) := by
  simp only [shortEscapes, List.mem_cons, List.not_mem_nil, or_false, Prod.mk.injEq] at h
  rw [escape, run_bind_ok take_run]
  rcases h with ⟨rfl, rfl⟩ | ⟨rfl, rfl⟩ | ⟨rfl, rfl⟩ | ⟨rfl, rfl⟩ | ⟨rfl, rfl⟩ | ⟨rfl, rfl⟩ |
    ⟨rfl, rfl⟩ | ⟨rfl, rfl⟩ <;> rfl

/-- An escape of a unit, in a text whose units are put together. -/
theorem escape_unit_run {c : Char} (h : codePoint.run cs = .ok (c, rest)) :
    (escape true).run ('u' :: cs) = .ok ([c], rest) := by
  rw [escape, run_bind_ok take_run]
  exact run_bind_ok h

/-- An escape of a unit, in a text that is only passed by. -/
theorem escape_pass_run {n : Nat} {ds : List Char} (h : SpellsUnit ds n) :
    (escape false).run ('u' :: (ds ++ rest)) = .ok ([], rest) := by
  rw [escape, run_bind_ok take_run]
  exact run_bind_ok (run_discard (unit_run h))

/-- A unit that is no half of a pair gives its character. -/
theorem codePoint_run {n : Nat} {ds : List Char} (h : SpellsUnit ds n)
    (hopens : opensPair n = false) (hcloses : closesPair n = false) :
    codePoint.run (ds ++ rest) = .ok (Char.ofNat n, rest) := by
  rw [codePoint, run_bind_ok (unit_run h)]
  simp only [hopens, hcloses]
  rfl

/-- The first unit of a pair is not the second one of another. -/
theorem closesPair_of_opensPair {n : Nat} (h : opensPair n = true) : closesPair n = false := by
  simp only [opensPair, Bool.and_eq_true, decide_eq_true_eq] at h
  simp only [closesPair, Bool.and_eq_false_iff, decide_eq_false_iff_not]
  omega

/-- Two halves of a pair give the character of the pair. -/
theorem codePoint_pair_run {n n' : Nat} {ds ds' : List Char} (h : SpellsUnit ds n)
    (hopens : opensPair n = true) (h' : SpellsUnit ds' n') (hcloses : closesPair n' = true) :
    codePoint.run (ds ++ '\\' :: 'u' :: (ds' ++ rest)) = .ok (ofPair n n', rest) := by
  have hmark : (expect ['\\', 'u']).run ('\\' :: 'u' :: (ds' ++ rest)) = .ok ((), ds' ++ rest) :=
    expect_run ['\\', 'u']
  rw [codePoint, run_bind_ok (unit_run h)]
  simp only [closesPair_of_opensPair hopens, hopens, if_true, Bool.false_eq_true, if_false]
  rw [run_bind_ok hmark, run_bind_ok (unit_run h'), hcloses]
  rfl

/-- A text ends at a quote. -/
theorem inside_quote {paired : Bool} {fuel : Nat} :
    (inside paired (fuel + 1)).run ('\x22' :: rest) = .ok ([], rest) := by
  rw [inside, run_bind_ok take_run]
  rfl

/-- One round: a character that stands for itself, or an escape. -/
theorem inside_step {paired : Bool} {fuel : Nat} {c : Char} {said said' behind : List Char}
    (hquote : c ≠ '\x22') (hcontrol : ¬ c.toNat < 0x20)
    (hfirst : (if c = '\\' then escape paired else pure [c]).run cs = .ok (said, behind))
    (hbehind : (inside paired fuel).run behind = .ok (said', rest)) :
    (inside paired (fuel + 1)).run (c :: cs) = .ok (said ++ said', rest) := by
  rw [inside, run_bind_ok take_run]
  simp only [hquote, hcontrol, if_false]
  split
  next hc =>
    rw [if_pos hc] at hfirst
    rw [run_bind_ok hfirst, run_bind_ok hbehind]
    rfl
  next hc =>
    rw [if_neg hc] at hfirst
    rw [run_bind_ok hfirst, run_bind_ok hbehind]
    rfl

/-- A plain character stands for itself. -/
theorem inside_plain {paired : Bool} {fuel : Nat} {c : Char} {said : List Char} (hc : IsPlain c)
    (hbehind : (inside paired fuel).run cs = .ok (said, rest)) :
    (inside paired (fuel + 1)).run (c :: cs) = .ok (c :: said, rest) :=
  inside_step hc.1 (Nat.not_lt.mpr hc.2.2) (by rw [if_neg hc.2.1]; rfl) hbehind

/-- An escape stands for what it spells. -/
theorem inside_escape {paired : Bool} {fuel : Nat} {said said' behind : List Char}
    (hescape : (escape paired).run cs = .ok (said, behind))
    (hbehind : (inside paired fuel).run behind = .ok (said', rest)) :
    (inside paired (fuel + 1)).run ('\\' :: cs) = .ok (said ++ said', rest) :=
  inside_step (by decide) (by decide) (by rwa [if_pos rfl]) hbehind

/-- A unit is a character of its own. -/
theorem inside_unit {paired : Bool} {fuel n : Nat} {ds said : List Char} (hds : SpellsUnit ds n)
    (hopens : opensPair n = false) (hcloses : closesPair n = false)
    (hbehind : (inside paired fuel).run cs = .ok (said, rest)) :
    ∃ said', (inside paired (fuel + 1)).run ('\\' :: 'u' :: (ds ++ cs)) = .ok (said', rest) ∧
      (paired = true → said' = Char.ofNat n :: said) := by
  cases paired with
  | true =>
    have hescape : (escape true).run ('u' :: (ds ++ cs)) = .ok ([Char.ofNat n], cs) :=
      escape_unit_run (codePoint_run hds hopens hcloses)
    exact ⟨_, inside_escape hescape hbehind, fun _ => rfl⟩
  | false => exact ⟨_, inside_escape (escape_pass_run hds) hbehind, fun hp => by cases hp⟩

/-- Two units are a character together. If the text is only passed by, each of them takes a round of
its own. -/
theorem inside_pair {paired : Bool} {fuel n n' : Nat} {ds ds' said said' : List Char}
    (hds : SpellsUnit ds n) (hopens : opensPair n = true) (hds' : SpellsUnit ds' n')
    (hcloses : closesPair n' = true) (hbehind : (inside paired fuel).run cs = .ok (said, rest))
    (hbehind' : (inside paired (fuel + 1)).run cs = .ok (said', rest)) :
    ∃ said'', (inside paired (fuel + 2)).run ('\\' :: 'u' :: (ds ++ '\\' :: 'u' :: (ds' ++ cs)))
        = .ok (said'', rest) ∧ (paired = true → said'' = ofPair n n' :: said') := by
  cases paired with
  | true =>
    have hescape : (escape true).run ('u' :: (ds ++ '\\' :: 'u' :: (ds' ++ cs)))
        = .ok ([ofPair n n'], cs) := escape_unit_run (codePoint_pair_run hds hopens hds' hcloses)
    exact ⟨_, inside_escape hescape hbehind', fun _ => rfl⟩
  | false =>
    have hsecond := inside_escape (escape_pass_run hds') hbehind
    exact ⟨_, inside_escape (escape_pass_run hds) hsecond, fun hp => by cases hp⟩

/-- **A text is read to its closing quote.** If it is only passed by, nobody asks what it says. -/
theorem inside_run {t : List Char} (h : SpellsText cs t) (paired : Bool) :
    ∀ fuel > cs.length, ∃ said, (inside paired fuel).run (cs ++ '\x22' :: rest) = .ok (said, rest) ∧
      (paired = true → said = t) := by
  induction h with
  | nil =>
    intro fuel hfuel
    obtain ⟨fuel, rfl⟩ : ∃ k, fuel = k + 1 := ⟨fuel - 1, by omega⟩
    exact ⟨[], inside_quote, fun _ => rfl⟩
  | plain hc _ ih =>
    intro fuel hfuel
    simp only [List.length_cons] at hfuel
    obtain ⟨fuel, rfl⟩ : ∃ k, fuel = k + 1 := ⟨fuel - 1, by omega⟩
    obtain ⟨said, hsaid, ht⟩ := ih fuel (by omega)
    exact ⟨_, inside_plain hc hsaid, fun hp => by rw [ht hp]⟩
  | short he _ ih =>
    intro fuel hfuel
    simp only [List.length_cons] at hfuel
    obtain ⟨fuel, rfl⟩ : ∃ k, fuel = k + 1 := ⟨fuel - 1, by omega⟩
    obtain ⟨said, hsaid, ht⟩ := ih fuel (by omega)
    exact ⟨_, inside_escape (escape_short_run he paired) hsaid, fun hp => by rw [ht hp]; rfl⟩
  | @unit ds n cs t hds hopens hcloses _ ih =>
    intro fuel hfuel
    simp only [List.length_cons, List.length_append] at hfuel
    obtain ⟨fuel, rfl⟩ : ∃ k, fuel = k + 1 := ⟨fuel - 1, by omega⟩
    obtain ⟨said, hsaid, ht⟩ := ih fuel (by omega)
    obtain ⟨said', hsaid', ht'⟩ := inside_unit hds hopens hcloses hsaid
    simp only [List.cons_append, List.append_assoc]
    exact ⟨said', hsaid', fun hp => by rw [ht' hp, ht hp]⟩
  -- a pair takes two steps of fuel: its second unit may be read apart from the first
  | @pair ds n ds' n' cs t hds hopens hds' hcloses _ ih =>
    intro fuel hfuel
    simp only [List.length_cons, List.length_append] at hfuel
    obtain ⟨fuel, rfl⟩ : ∃ k, fuel = k + 2 := ⟨fuel - 2, by omega⟩
    obtain ⟨said, hsaid, -⟩ := ih fuel (by omega)
    obtain ⟨said', hsaid', ht⟩ := ih (fuel + 1) (by omega)
    obtain ⟨said'', hsaid'', ht'⟩ := inside_pair hds hopens hds' hcloses hsaid hsaid'
    simp only [List.cons_append, List.append_assoc]
    exact ⟨said'', hsaid'', fun hp => by rw [ht' hp, ht hp]⟩

end JsxWidgets.Json
