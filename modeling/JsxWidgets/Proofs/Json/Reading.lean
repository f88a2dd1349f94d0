import JsxWidgets.Proofs.Json.Scanning
import JsxWidgets.Proofs.Text.Tables

/-!
# Reading values of JSON

What the readers of values do on a text that spells a value, whatever type it has. A reader that
wants a value of some type gives it if the value has this type, and otherwise it fails (`Reads`). So
what is read depends on the value alone and not on how it is spelled.

Lists and objects hand their items and entries to other readers. Their laws are stated for any such
readers (`reads_list`, `fields_yields`). As a reader may go down into the values in a value, there
is a bound on the length of the texts for which it is known what the reader does.
-/

namespace JsxWidgets.Json

variable {α β σ : Type} {cs rest behind : List Char}

/-! ### What is made of a text -/

/-- **What a reader makes of a text**: it gives a value and leaves a rest, or it fails. -/
def Yields (r : Reader α) (cs : List Char) (value : Option α) (rest : List Char) : Prop :=
  match value with
  | some a => r.run cs = .ok (a, rest)
  | none => ∃ p, r.run cs = .error p

theorem Yields.of_eq {r r' : Reader α} {cs cs' : List Char} {value : Option α}
    (heq : r.run cs = r'.run cs') (h : Yields r' cs' value rest) : Yields r cs value rest := by
  unfold Yields at h ⊢
  rwa [heq]

/-- What two steps make of a text. -/
theorem Yields.bind {r : Reader α} {f : α → Reader β} {value : Option α} {g : α → Option β}
    (h : Yields r cs value behind)
    (hf : ∀ a, value = some a → Yields (f a) behind (g a) rest) :
    Yields (r >>= f) cs (value.bind g) rest := by
  cases value with
  | some a => exact (hf a rfl).of_eq (run_bind_ok h)
  | none =>
    obtain ⟨p, hp⟩ := h
    exact ⟨p, run_bind_error hp⟩

/-- A value that is changed afterwards. -/
theorem Yields.map {r : Reader α} {value : Option α} (f : α → β) (h : Yields r cs value rest) :
    Yields (r >>= fun a => pure (f a)) cs (value.map f) rest := by
  rw [Option.map_eq_bind]
  exact h.bind fun a _ => rfl

/-- What a whole text is read for, if only blanks are left. -/
theorem Yields.readAll {r : Reader α} {text : String} {value : Option α}
    (h : Yields r text.toList value behind) (hbehind : IsGap behind) :
    (r.readAll text).toOption = value := by
  rw [Reader.readAll]
  cases value with
  | some a =>
    have hall : behind.all isBlank = true := List.all_eq_true.mpr hbehind
    rw [show r.run text.toList = .ok (a, behind) from h]
    change (if behind.all isBlank = true then pure a else throw Problem.malformed :
      Except Problem α).toOption = some a
    rw [if_pos hall]
    rfl
  | none =>
    obtain ⟨p, hp⟩ := h
    rw [hp]
    rfl

/-- Whatever comes in front of it, a failure is a failure. -/
theorem throw_fails (r : Reader β) (p : Problem) :
    ∃ q, (r >>= fun _ => (throw p : Reader α)).run cs = .error q := by
  cases h : r.run cs with
  | error q => exact ⟨q, run_bind_error h⟩
  | ok result =>
    obtain ⟨b, rest⟩ := result
    exact ⟨p, run_bind_ok h⟩

/-- A value that is refused is not read. -/
theorem refuse_yields (c : Char) : Yields (refuse c : Reader α) cs none rest := by
  change ∃ p, (refuse c : Reader α).run cs = .error p
  unfold refuse
  -- Whatever is read for the report, the value is unfitting in the end.
  repeat' split
  all_goals first | exact throw_fails _ _ | exact ⟨.unfitting, rfl⟩

/-! ### First characters -/

/-- The character that the texts of a value start with. -/
def Starts (c : Char) : Literal → Prop
  | .null => c = 'n'
  | .bool true => c = 't'
  | .bool false => c = 'f'
  | .int _ | .real _ _ => startsNumber c = true
  | .text _ => c = '\x22'
  | .array _ => c = '['
  | .object _ => c = '\x7b'

theorem startsNumber_of_digit {c : Char} (hc : Text.isAsciiDigit c = true) :
    startsNumber c = true := by
  rw [startsNumber, hc, Bool.or_true]

/-- A numeral starts with a sign or a digit. -/
theorem NumeralText.WellFormed.exists_head {t : NumeralText} (ht : t.WellFormed) :
    ∃ c behind, t.chars = c :: behind ∧ startsNumber c = true := by
  obtain ⟨negative, whole, places, power⟩ := t
  cases negative with
  | true => exact ⟨'-', _, rfl, rfl⟩
  | false =>
    obtain ⟨d, more, rfl⟩ := List.exists_cons_of_ne_nil ht.whole.ne_nil
    exact ⟨d, _, rfl, startsNumber_of_digit (ht.whole.digits d List.mem_cons_self)⟩

theorem NumeralText.WellFormed.startsNumber {t : NumeralText} (ht : t.WellFormed) {c : Char}
    (h : t.chars = c :: behind) : startsNumber c = true := by
  obtain ⟨d, more, hchars, hd⟩ := ht.exists_head
  rw [h] at hchars
  cases hchars
  exact hd

/-- A numeral denotes a number. -/
theorem Numeral.starts_of_value? {n : Numeral} {v : Literal} (h : n.value? = some v) {c : Char}
    (hc : startsNumber c = true) : Starts c v := by
  unfold Numeral.value? at h
  split at h
  next => cases h; exact hc
  next =>
    split at h
    next => cases h
    next => cases h; exact hc

/-- **The first character tells the type of a value.** -/
theorem Spells.exists_head {v : Literal} (h : Spells cs v) :
    ∃ c behind, cs = c :: behind ∧ Starts c v := by
  cases h with
  | number ht hv =>
    obtain ⟨c, behind, hchars, hc⟩ := ht.exists_head
    exact ⟨c, behind, hchars, Numeral.starts_of_value? hv hc⟩
  | null | yes | no | text | noItems | items | noFields | fields => exact ⟨_, _, rfl, rfl⟩

/-- What starts no value is not the first character of one. -/
theorem Starts.ne {c d : Char} {v : Literal} (h : Starts c v) (hnumber : startsNumber d = false)
    (hothers : d ∉ ['n', 't', 'f', '\x22', '[', '\x7b']) : c ≠ d := by
  rintro rfl
  unfold Starts at h
  split at h
  case h_4 | h_5 => rw [hnumber] at h; cases h
  all_goals
    subst h
    simp at hothers

/-- No value starts with a blank. -/
theorem Starts.not_blank {c : Char} {v : Literal} (h : Starts c v) : isBlank c = false := by
  rw [isBlank]
  simp only [Bool.or_eq_false_iff, decide_eq_false_iff_not]
  exact ⟨⟨⟨h.ne rfl (by decide), h.ne rfl (by decide)⟩, h.ne rfl (by decide)⟩, h.ne rfl (by decide)⟩

/-! ### What ends a numeral -/

/-- The signs of lists and objects end a numeral. -/
theorem stops_cons {c : Char} (hc : c ∈ [',', ']', '\x7d']) : Stops (c :: rest) := by
  intro d hd
  obtain rfl : c = d := Option.some.inj hd
  simp only [List.mem_cons, List.not_mem_nil, or_false] at hc
  rcases hc with rfl | rfl | rfl <;> decide

/-- So do blanks in front of something that does. -/
theorem Stops.behind_gap {gap : List Char} (h : Stops rest) (hgap : IsGap gap) :
    Stops (gap ++ rest) := by
  cases gap with
  | nil => exact h
  | cons b gap =>
    intro d hd
    obtain rfl : b = d := Option.some.inj hd
    have hb := hgap b List.mem_cons_self
    simp only [isBlank, Bool.or_eq_true, decide_eq_true_eq] at hb
    rcases hb with ((rfl | rfl) | rfl) | rfl <;> decide

/-- What goes on behind an item ends a numeral in it. -/
theorem SpellsMoreItems.stops {vs : List Literal} (h : SpellsMoreItems cs vs) :
    Stops (cs ++ rest) := by
  cases h with
  | close hgap | comma hgap =>
    rw [List.append_assoc]
    exact (stops_cons (by decide)).behind_gap hgap

/-- So does what goes on behind a field. -/
theorem SpellsMoreEntries.stops {entries : List (String × Literal)}
    (h : SpellsMoreEntries cs entries) : Stops (cs ++ rest) := by
  cases h with
  | close hgap | comma hgap =>
    rw [List.append_assoc]
    exact (stops_cons (by decide)).behind_gap hgap

/-! ### Values of a wanted type -/

/-- **A reader that wants values of some type**: of a value whose text is shorter than the bound it
makes what is wanted, or it fails if the value is of another type. -/
def Reads (bound : Nat) (r : Reader α) (f : Literal → Option α) : Prop :=
  ∀ ⦃gap cs v rest⦄, IsGap gap → Spells cs v → cs.length < bound → Stops rest →
    Yields r (gap ++ (cs ++ rest)) (f v) rest

/-- A reader goes by the first character of a value. -/
theorem reads_of_starts {bound : Nat} {read : Char → Reader α} {f : Literal → Option α}
    (h : ∀ ⦃cs c behind v rest⦄, Spells cs v → cs = c :: behind → Starts c v → cs.length < bound →
      Stops rest → Yields (read c) (c :: (behind ++ rest)) (f v) rest) :
    Reads bound (front >>= read) f := by
  intro gap cs v rest hgap hspells hlength hrest
  obtain ⟨c, behind, rfl, hc⟩ := hspells.exists_head
  exact (h hspells rfl hc hlength hrest).of_eq (run_bind_ok (front_run hgap hc.not_blank))

/-- A reader of values of one type goes on if the first character is one of this type, and refuses
the value otherwise. -/
theorem reads_of_type {bound : Nat} {P : Char → Prop} [DecidablePred P] {r : Reader α}
    {f : Literal → Option α} (hother : ∀ c v, Starts c v → ¬ P c → f v = none)
    (h : ∀ ⦃cs c behind v rest⦄, Spells cs v → cs = c :: behind → P c → cs.length < bound →
      Stops rest → Yields r (c :: (behind ++ rest)) (f v) rest) :
    Reads bound (front >>= fun c => if P c then r else refuse c) f := by
  refine reads_of_starts fun cs c behind v rest hspells hcs hc hlength hrest => ?_
  by_cases hstart : P c
  · rw [if_pos hstart]
    exact h hspells hcs hstart hlength hrest
  · rw [if_neg hstart, hother c v hc hstart]
    exact refuse_yields c

/-- A text. -/
def asText? : Literal → Option String
  | .text s => some s
  | _ => none

/-- An integer that is not negative. -/
def asNatural? : Literal → Option Nat
  | .int (.ofNat n) => some n
  | _ => none

/-- The inside of a text with its closing quote. -/
theorem quotedRest_run {t : List Char} (h : SpellsText cs t) (paired : Bool) :
    ∃ said, (quotedRest paired).run (cs ++ '\x22' :: rest) = .ok (said, rest) ∧
      (paired = true → said = t) := by
  rw [quotedRest, run_bind_ok get_run]
  refine inside_run h paired _ ?_
  rw [List.length_append]
  omega

/-- **A quoted text is read as what it spells.** -/
theorem quoted_run {t : List Char} (h : SpellsText cs t) :
    quoted.run ('\x22' :: (cs ++ '\x22' :: rest)) = .ok (String.ofList t, rest) := by
  have hrest : (quotedRest true).run (cs ++ '\x22' :: rest) = .ok (t, rest) := by
    obtain ⟨said, hsaid, hsame⟩ := quotedRest_run h true
    rwa [hsame rfl] at hsaid
  rw [quoted, run_bind_ok pass_run, run_bind_ok hrest]
  rfl

/-- A number with what ends it behind it. -/
theorem number_run {t : NumeralText} {v : Literal} (ht : t.WellFormed)
    (hv : t.numeral.value? = some v) (hrest : Stops rest) :
    number.run (t.chars ++ rest) = .ok (v, rest) := by
  rw [number, run_bind_ok (numeral_run ht hrest .unfinished), hv]
  rfl

/-- Where a text is asked for, a text is read, and anything else is refused. -/
theorem reads_text (bound : Nat) : Reads bound text asText? := by
  refine reads_of_type (P := (· = '\x22')) (fun c v hc hne => ?_)
    fun cs c behind v rest hspells hcs hquote _ _ => ?_
  · cases v with
    | text s => exact absurd hc hne
    | _ => rfl
  · subst hquote
    cases hspells with
    | text ht =>
      cases hcs
      rw [List.append_assoc]
      exact quoted_run ht
    | number ht => cases ht.startsNumber hcs
    | null | yes | no | noItems | items | noFields | fields => cases hcs

/-- Where a natural number is asked for, such a number is read, and anything else is refused. -/
theorem reads_natural (bound : Nat) : Reads bound natural asNatural? := by
  refine reads_of_type (P := (startsNumber · = true)) (fun c v hc hne => ?_)
    fun cs c behind v rest hspells hcs hnumber _ hrest => ?_
  -- a number that does not fit is refused, and that is what the lenient reading gives too
  · cases v with
    | int n => exact absurd hc hne
    | _ => rfl
  · cases hspells with
    | number ht hv =>
      rw [← List.cons_append, ← hcs]
      refine Yields.of_eq (run_bind_ok (number_run ht hv hrest)) ?_
      cases v with
      | int n =>
        cases n with
        | ofNat n => rfl
        | negSucc n => exact ⟨.unfitting, rfl⟩
      | _ => exact ⟨.unfitting, rfl⟩
    | null | yes | no | text | noItems | items | noFields | fields =>
      cases hcs
      cases hnumber

/-! ### Lists -/

/-- The list of what is wanted of the items of a list. -/
def asList? (f : Literal → Option α) : Literal → Option (List α)
  | .array vs => vs.mapM f
  | _ => none

section Lists

variable {bound : Nat} {item : Reader α} {f : Literal → Option α}

/-- A list ends at its bracket. -/
theorem moreItems_close {gap : List Char} (hgap : IsGap gap) (fuel : Nat) :
    (moreItems item (fuel + 1)).run (gap ++ ']' :: rest) = .ok ([], rest) := by
  rw [moreItems, run_bind_ok (front_run hgap rfl)]
  rfl

/-- Behind a comma an item is read, which has to be there. -/
theorem moreItems_comma {gap gap' : List Char} {c : Char} (hgap : IsGap gap) (hgap' : IsGap gap')
    (hblank : isBlank c = false) (hclose : c ≠ ']') (fuel : Nat) :
    (moreItems item (fuel + 1)).run (gap ++ ',' :: (gap' ++ c :: rest))
      = (item >>= fun first => moreItems item fuel >>= fun others => pure (first :: others)).run
          (c :: rest) := by
  rw [moreItems, run_bind_ok (front_run hgap rfl)]
  change (pass >>= fun _ => front >>= fun d => if d = ']' then _ else _).run _ = _
  rw [run_bind_ok pass_run, run_bind_ok (front_run hgap' hblank), if_neg hclose]

/-- **What is behind an item is read item by item.** -/
theorem moreItems_yields (hitem : Reads bound item f) {more : List Char} {vs : List Literal}
    (h : SpellsMoreItems more vs) (hbound : more.length ≤ bound) :
    ∀ fuel > more.length, Yields (moreItems item fuel) (more ++ rest) (vs.mapM f) rest := by
  intro fuel hfuel
  obtain ⟨fuel, rfl⟩ : ∃ k, fuel = k + 1 := ⟨fuel - 1, by omega⟩
  -- The recursion is on the text: every round takes a comma and an item off it.
  match h with
  | .close hgap =>
    rw [List.append_assoc]
    exact moreItems_close hgap fuel
  | @SpellsMoreItems.comma gap _ _ hgap (@SpellsItems.intro gap' cs v more' vs' hgap' hv hmore) =>
    simp only [List.length_append, List.length_cons] at hbound hfuel
    obtain ⟨c, behind, hcs, hc⟩ := hv.exists_head
    have hchars : gap ++ ',' :: (gap' ++ (cs ++ more')) ++ rest
        = gap ++ ',' :: (gap' ++ c :: (behind ++ (more' ++ rest))) := by
      simp only [hcs, List.append_assoc, List.cons_append]
    have hfirst : Yields item (c :: (behind ++ (more' ++ rest))) (f v) (more' ++ rest) := by
      have hread : Yields item ([] ++ (cs ++ (more' ++ rest))) (f v) (more' ++ rest) :=
        hitem isGap_nil hv (by omega) hmore.stops
      rwa [hcs] at hread
    have hothers := moreItems_yields hitem hmore (by omega) fuel (by omega)
    rw [hchars, List.mapM_cons]
    refine Yields.of_eq (moreItems_comma hgap hgap' hc.not_blank (hc.ne rfl (by decide)) fuel) ?_
    exact hfirst.bind fun a _ => hothers.bind fun others _ => rfl

/-- **A list is read item by item.** -/
theorem reads_list (hitem : Reads bound item f) : Reads (bound + 1) (list item) (asList? f) := by
  refine reads_of_type (P := (· = '[')) (fun c v hc hne => ?_)
    fun cs c behind v rest hspells hcs hopen hlength hrest => ?_
  · cases v with
    | array vs => exact absurd hc hne
    | _ => rfl
  · subst hopen
    cases hspells with
    | @noItems gap hgap =>
      cases hcs
      have hclose : front.run (gap ++ ([']'] ++ rest)) = .ok (']', ']' :: rest) :=
        front_run hgap rfl
      rw [List.append_assoc]
      exact Yields.of_eq ((run_bind_ok pass_run).trans (run_bind_ok hclose)) rfl
    | @items _ vs h =>
      cases hcs
      cases h with
      | @intro gap cs v more vs hgap hv hmore =>
        simp only [List.length_append, List.length_cons] at hlength
        obtain ⟨c, behind, rfl, hc⟩ := hv.exists_head
        have hopened : front.run (gap ++ (c :: behind ++ more) ++ rest)
            = .ok (c, c :: behind ++ (more ++ rest)) := by
          rw [List.append_assoc, List.append_assoc]
          exact front_run hgap hc.not_blank
        have hfirst : Yields item ([] ++ (c :: behind ++ (more ++ rest))) (f v) (more ++ rest) :=
          hitem isGap_nil hv (by omega) hmore.stops
        -- The fuel is the length of what is left, which is more than the items can use.
        have hothers : Yields (moreItems item ((more ++ rest).length + 1)) (more ++ rest)
            (vs.mapM f) rest := by
          refine moreItems_yields hitem hmore (by omega) _ ?_
          rw [List.length_append]
          omega
        refine Yields.of_eq ((run_bind_ok pass_run).trans (run_bind_ok hopened)) ?_
        rw [if_neg (hc.ne rfl (by decide))]
        change Yields _ _ ((v :: vs).mapM f) rest
        rw [List.mapM_cons]
        refine hfirst.bind fun a _ => ?_
        exact Yields.of_eq (run_bind_ok get_run) (hothers.bind fun others _ => rfl)
    | number ht => cases ht.startsNumber hcs
    | null | yes | no | text | noFields | fields => cases hcs

end Lists

/-! ### Objects -/

/-- **A reader that takes an entry into account** behind its name: it makes something of the value,
or it fails. If names are only passed by, it is told a name that means nothing. -/
def ReadsEntry (bound : Nat) (paired : Bool) (entry : σ → String → Reader σ)
    (f : σ → String × Literal → Option σ) : Prop :=
  ∀ ⦃s said name behind gap cs v rest⦄, (paired = true → said = name) → IsGap behind → IsGap gap →
    Spells cs v → cs.length < bound → Stops rest →
      Yields (entry s said) (behind ++ ':' :: (gap ++ (cs ++ rest))) (f s (name, v)) rest

section Objects

variable {bound : Nat} {paired : Bool} {entry : σ → String → Reader σ}
  {f : σ → String × Literal → Option σ}

/-- An entry with its name. -/
theorem field_yields (hentry : ReadsEntry bound paired entry f) {front key behind gap : List Char}
    {t : List Char} {v : Literal} (hfront : IsGap front) (hkey : SpellsText key t)
    (hbehind : IsGap behind) (hgap : IsGap gap) (hv : Spells cs v) (hlength : cs.length < bound)
    (hrest : Stops rest) (s : σ) :
    Yields (field paired entry s)
      (front ++ '\x22' :: (key ++ '\x22' :: (behind ++ ':' :: (gap ++ (cs ++ rest)))))
      (f s (String.ofList t, v)) rest := by
  obtain ⟨said, hsaid, hsame⟩ := quotedRest_run hkey paired
  have hname : paired = true → String.ofList said = String.ofList t := fun hp => by rw [hsame hp]
  rw [field]
  refine Yields.of_eq (run_bind_ok (front_run hfront rfl)) ?_
  refine Yields.of_eq ((run_bind_ok pass_run).trans (run_bind_ok hsaid)) ?_
  exact hentry hname hbehind hgap hv hlength hrest

/-- An object ends at its brace. -/
theorem moreFields_close {gap : List Char} (hgap : IsGap gap) (fuel : Nat) (s : σ) :
    (moreFields paired entry (fuel + 1) s).run (gap ++ '\x7d' :: rest) = .ok (s, rest) := by
  rw [moreFields, run_bind_ok (front_run hgap rfl)]
  rfl

/-- Behind a comma an entry is read. -/
theorem moreFields_comma {gap : List Char} (hgap : IsGap gap) (fuel : Nat) (s : σ) :
    (moreFields paired entry (fuel + 1) s).run (gap ++ ',' :: rest)
      = (field paired entry s >>= fun s => moreFields paired entry fuel s).run rest := by
  rw [moreFields, run_bind_ok (front_run hgap rfl)]
  exact run_bind_ok pass_run

/-- **What is behind an entry is taken into account entry by entry.** -/
theorem moreFields_yields (hentry : ReadsEntry bound paired entry f) {more : List Char}
    {entries : List (String × Literal)} (h : SpellsMoreEntries more entries)
    (hbound : more.length ≤ bound) : ∀ fuel > more.length, ∀ s,
      Yields (moreFields paired entry fuel s) (more ++ rest) (entries.foldlM f s) rest := by
  intro fuel hfuel s
  obtain ⟨fuel, rfl⟩ : ∃ k, fuel = k + 1 := ⟨fuel - 1, by omega⟩
  match h with
  | .close hgap =>
    rw [List.append_assoc]
    exact moreFields_close hgap fuel s
  | @SpellsMoreEntries.comma gap _ _ hgap (@SpellsEntries.intro front key t behind gap' cs v more'
      entries' hfront hkey hbehind hgap' hv hmore) =>
    simp only [List.length_append, List.length_cons] at hbound hfuel
    -- the text is split at each gap, so that one field can be read at a time
    have hchars : gap ++ ',' :: (front ++ '\x22' :: (key ++ '\x22' :: (behind ++ ':' :: (gap' ++
          (cs ++ more'))))) ++ rest
        = gap ++ ',' :: (front ++ '\x22' :: (key ++ '\x22' :: (behind ++ ':' :: (gap' ++
          (cs ++ (more' ++ rest)))))) := by
      simp only [List.append_assoc, List.cons_append]
    have hfirst := field_yields hentry hfront hkey hbehind hgap' hv (by omega)
      (hmore.stops : Stops (more' ++ rest)) s
    rw [hchars, List.foldlM_cons]
    refine Yields.of_eq (moreFields_comma hgap fuel s) (hfirst.bind fun s' _ => ?_)
    -- the rest is shorter by a field at least, so the fuel that is left suffices
    exact moreFields_yields hentry hmore (by omega) fuel (by omega) s'

/-- **The entries of an object are taken into account one by one.** -/
theorem fields_yields (hentry : ReadsEntry bound paired entry f)
    {entries : List (String × Literal)} (h : SpellsEntries cs entries) (hbound : cs.length ≤ bound)
    (start : σ) :
    Yields (fields paired entry start) (cs ++ rest) (entries.foldlM f start) rest := by
  cases h with
  | @intro front key t behind gap cs v more entries hfront hkey hbehind hgap hv hmore =>
    simp only [List.length_append, List.length_cons] at hbound
    have hchars : front ++ '\x22' :: (key ++ '\x22' :: (behind ++ ':' :: (gap ++ (cs ++ more))))
          ++ rest
        = front ++ '\x22' :: (key ++ '\x22' :: (behind ++ ':' :: (gap ++
          (cs ++ (more ++ rest))))) := by
      simp only [List.append_assoc, List.cons_append]
    have hfirst := field_yields hentry isGap_nil hkey hbehind hgap hv (by omega)
      (hmore.stops : Stops (more ++ rest)) start
    -- the fuel is the length of what is left, and that is more than the entries need
    have hmany : ∀ s, Yields (moreFields paired entry ((more ++ rest).length + 1) s) (more ++ rest)
        (entries.foldlM f s) rest := by
      refine moreFields_yields hentry hmore (by omega) _ ?_
      rw [List.length_append]
      omega
    rw [hchars, List.foldlM_cons, fields]
    refine Yields.of_eq (run_bind_ok (front_run hfront rfl)) ?_
    rw [if_neg (by decide)]
    exact hfirst.bind fun s _ => Yields.of_eq (run_bind_ok get_run) (hmany s)

theorem fields_empty {gap : List Char} (hgap : IsGap gap) (start : σ) :
    (fields paired entry start).run (gap ++ '\x7d' :: rest) = .ok (start, rest) := by
  rw [fields, run_bind_ok (front_run hgap rfl)]
  rfl

/-- **A whole object**: blanks, the opening brace, and what is made of the entries behind it. -/
theorem SpellsObject.yields {text : String} {entries : List (String × Literal)}
    (h : SpellsObject text entries) (hentry : ∀ bound, ReadsEntry bound paired entry f)
    (start : σ) : ∃ gap inside behind, IsGap gap ∧ IsGap behind ∧
      text.toList = gap ++ '\x7b' :: inside ∧
      Yields (fields paired entry start) inside (entries.foldlM f start) behind := by
  cases h with
  | empty hfront hgap hbehind htext =>
    exact ⟨_, _, _, hfront, hbehind, htext, fields_empty hgap start⟩
  | @entries front cs _ behind hfront h hbehind htext =>
    refine ⟨_, _, _, hfront, hbehind, htext, ?_⟩
    exact fields_yields (hentry cs.length) h (Nat.le_refl _) start

end Objects

/-! ### Tables of texts -/

/-- An entry whose value is a text. -/
def asNamedText? (entry : String × Literal) : Option (String × String) :=
  (asText? entry.2).map fun value => (entry.1, value)

/-- A table of texts. -/
def asTexts? : Literal → Option (List (String × String))
  | .object fields => fields.mapM asNamedText?
  | _ => none

/-- Entries that are texts set their values one after the other. -/
theorem foldlM_textEntry_eq (entries : List (String × Literal)) (table : List (String × String)) :
    entries.foldlM (fun table entry => (asText? entry.2).map fun value =>
        Text.update entry.1 (fun _ => value) table) table
      = (entries.mapM asNamedText?).map fun texts =>
          texts.foldl (fun table entry => Text.update entry.1 (fun _ => entry.2) table) table := by
  induction entries generalizing table with
  | nil => rfl
  | cons entry entries ih =>
    obtain ⟨key, v⟩ := entry
    rw [List.foldlM_cons, List.mapM_cons, asNamedText?]
    cases asText? v with
    | none => rfl
    | some value =>
      change entries.foldlM _ (Text.update key (fun _ => value) table) = _
      rw [ih]
      cases entries.mapM asNamedText? <;> rfl

/-- Whether all of some values fit does not depend on their order. -/
theorem mapM_perm {f : α → Option β} {as as' : List α} (hperm : as.Perm as') :
    (as.mapM f = none ∧ as'.mapM f = none) ∨
      ∃ bs bs', as.mapM f = some bs ∧ as'.mapM f = some bs' ∧ bs.Perm bs' := by
  induction hperm with
  | nil => exact Or.inr ⟨[], [], rfl, rfl, .nil⟩
  | cons a _ ih =>
    rw [List.mapM_cons, List.mapM_cons]
    -- one failure makes the whole fail, wherever it stands
    cases f a with
    | none => exact Or.inl ⟨rfl, rfl⟩
    | some b =>
      rcases ih with ⟨h, h'⟩ | ⟨bs, bs', h, h', hbs⟩
      · rw [h, h']
        exact Or.inl ⟨rfl, rfl⟩
      · rw [h, h']
        exact Or.inr ⟨b :: bs, b :: bs', rfl, rfl, hbs.cons b⟩
  | swap a a' as =>
    simp only [List.mapM_cons]
    cases f a with
    | none => cases f a' <;> exact Or.inl ⟨rfl, rfl⟩
    | some b =>
      cases f a' with
      | none => exact Or.inl ⟨rfl, rfl⟩
      | some b' =>
        cases as.mapM f with
        | none => exact Or.inl ⟨rfl, rfl⟩
        | some bs => exact Or.inr ⟨b' :: b :: bs, b :: b' :: bs, rfl, rfl, .swap b b' bs⟩
  | trans _ _ ih ih' =>
    rcases ih with ⟨h, h'⟩ | ⟨bs, bs', h, h', hbs⟩
    · rcases ih' with ⟨-, h''⟩ | ⟨_, _, hsome, -⟩
      · exact Or.inl ⟨h, h''⟩
      · rw [h'] at hsome
        cases hsome
    · rcases ih' with ⟨hnone, -⟩ | ⟨cs, cs', hsome, h'', hcs⟩
      · rw [h'] at hnone
        cases hnone
      · rw [h'] at hsome
        cases hsome
        exact Or.inr ⟨bs, cs', h, h'', hbs.trans hcs⟩

/-- A table of texts has the names of its fields. -/
theorem map_fst_mapM_asNamedText? {fields : List (String × Literal)}
    {texts : List (String × String)} (h : fields.mapM asNamedText? = some texts) :
    texts.map Prod.fst = fields.map Prod.fst := by
  induction fields generalizing texts with
  | nil => cases h; rfl
  | cons field fields ih =>
    rw [List.mapM_cons] at h
    obtain ⟨text, htext, hrest⟩ := Option.bind_eq_some_iff.mp h
    obtain ⟨others, hothers, hsame⟩ := Option.bind_eq_some_iff.mp hrest
    obtain ⟨value, -, rfl⟩ := Option.map_eq_some_iff.mp htext
    cases hsame
    rw [List.map_cons, List.map_cons, ih hothers]

/-- **A table of texts is what its entries make of it**, in any order. -/
theorem foldlM_textEntry {fields entries : List (String × Literal)} (hperm : fields.Perm entries)
    (hsorted : (fields.map Prod.fst).Pairwise (· < ·)) :
    entries.foldlM (fun table entry => (asText? entry.2).map fun value =>
      Text.update entry.1 (fun _ => value) table) [] = fields.mapM asNamedText? := by
  rw [foldlM_textEntry_eq]
  -- Either some value is no text, in any order, or the texts are a table and its entries.
  rcases mapM_perm (f := asNamedText?) hperm with ⟨hnone, hnone'⟩ | ⟨texts, texts', h, h', htexts⟩
  · rw [hnone, hnone']
    rfl
  · have hkeys : (texts.map Prod.fst).Pairwise (· < ·) := by
      rwa [map_fst_mapM_asNamedText? h]
    rw [h, h']
    exact congrArg some (Text.tableOf_perm htexts hkeys)

/-- A field of such a table is read into the table. -/
theorem readsEntry_text (bound : Nat) :
    ReadsEntry bound true textEntry fun table entry => (asText? entry.2).map fun value =>
      Text.update entry.1 (fun _ => value) table := by
  intro s said name behind gap cs v rest hsame hbehind hgap hv hlength hrest
  obtain rfl := hsame rfl
  refine Yields.of_eq (run_bind_ok (sign_run hbehind rfl)) ?_
  exact (reads_text bound hgap hv hlength hrest).map fun value =>
    Text.update said (fun _ => value) s

/-- Where a table of texts is asked for, one is read, and anything else is refused. -/
theorem reads_texts (bound : Nat) : Reads bound texts asTexts? := by
  refine reads_of_type (P := (· = '\x7b')) (fun c v hc hne => ?_)
    fun cs c behind v rest hspells hcs hopen hlength hrest => ?_
  · cases v with
    | object fields => exact absurd hc hne
    | _ => rfl
  · subst hopen
    cases hspells with
    | noFields hgap =>
      cases hcs
      rw [List.append_assoc]
      exact (run_bind_ok pass_run).trans (fields_empty hgap [])
    -- the entries are folded in the order of the text, the value has them sorted
    | @fields inner entries fields h hperm hsorted =>
      have hentries : Yields (Json.fields true textEntry []) (inner ++ rest) _ rest :=
        fields_yields (readsEntry_text inner.length) h (Nat.le_refl _) []
      rw [foldlM_textEntry hperm hsorted] at hentries
      cases hcs
      exact hentries.of_eq (run_bind_ok pass_run)
    | number ht => cases ht.startsNumber hcs
    | null | yes | no | text | noItems | items => cases hcs

/-! ### Values that are passed by -/

/-- Passing by an entry reads its value, whatever its name is. -/
theorem readsEntry_skip {bound : Nat} {item : Reader Unit}
    (hitem : Reads bound item fun _ => some ()) :
    ReadsEntry bound false (fun _ _ => do sign ':'; item) fun _ _ => some () := by
  intro s said name behind gap cs v rest _ hbehind hgap hv hlength hrest
  exact Yields.of_eq (run_bind_ok (sign_run hbehind rfl)) (hitem hgap hv hlength hrest)

/-- **Every value can be passed by.** The bound says how deep lists and objects may be nested. -/
theorem reads_skipNested (fuel : Nat) : Reads fuel (skipNested fuel) fun _ => some () := by
  induction fuel with
  | zero => exact fun gap cs v rest _ _ hlength => absurd hlength (Nat.not_lt_zero _)
  | succ fuel ih =>
    rw [skipNested]
    -- What is inside of brackets is shorter by them, and is passed with one level less.
    refine reads_of_starts fun cs c behind v rest hspells hcs hc hlength hrest => ?_
    cases hspells with
    | null | yes | no =>
      cases hcs
      exact expect_run _
    | @text inner t ht =>
      cases hcs
      obtain ⟨said, hsaid, -⟩ := quotedRest_run ht false
      rw [List.append_assoc]
      exact (run_bind_ok pass_run).trans (run_discard hsaid)
    | @number t v ht hv =>
      have hnumber := ht.startsNumber hcs
      have hothers : c ≠ 'n' ∧ c ≠ 't' ∧ c ≠ 'f' ∧ c ≠ '\x22' := by
        refine ⟨?_, ?_, ?_, ?_⟩ <;> rintro rfl <;> cases hnumber
      rw [if_neg hothers.1, if_neg hothers.2.1, if_neg hothers.2.2.1, if_neg hothers.2.2.2,
        if_pos hnumber, ← List.cons_append, ← hcs]
      exact run_discard (numeral_run ht hrest .malformed)
    | @noItems gap hgap =>
      have hlist : Yields (list (skipNested fuel)) ([] ++ ('[' :: (gap ++ [']']) ++ rest)) (some [])
          rest := reads_list ih isGap_nil (.noItems hgap) hlength hrest
      cases hcs
      exact run_discard hlist
    | @items inner vs h =>
      have hlist : Yields (list (skipNested fuel)) ([] ++ ('[' :: inner ++ rest))
          (vs.mapM fun _ => some ()) rest := reads_list ih isGap_nil (.items h) hlength hrest
      have hmany : (vs.mapM fun _ => some ()) = some (vs.map fun _ => ()) := List.mapM_pure
      rw [hmany] at hlist
      cases hcs
      exact run_discard hlist
    | noFields hgap =>
      cases hcs
      rw [List.append_assoc]
      exact (run_bind_ok pass_run).trans (fields_empty hgap ())
    | @fields inner entries fields h =>
      have hentries : Yields (Json.fields false (fun _ _ => do sign ':'; skipNested fuel) ())
          (inner ++ rest) (entries.foldlM (fun _ _ => some ()) ()) rest :=
        fields_yields (readsEntry_skip ih) h (Nat.le_of_lt_succ (Nat.lt_of_succ_lt hlength)) ()
      have hmany : ∀ es : List (String × Literal), es.foldlM (fun _ _ => some ()) () = some () := by
        intro es
        induction es with
        | nil => rfl
        | cons _ es ih => rw [List.foldlM_cons]; exact ih
      rw [hmany] at hentries
      cases hcs
      exact (run_bind_ok pass_run).trans hentries

/-- A value that nobody wants is passed by. -/
theorem reads_skip (bound : Nat) : Reads bound skip fun _ => some () := by
  intro gap cs v rest hgap hv _ hrest
  have hlength : cs.length < (gap ++ (cs ++ rest)).length + 1 := by
    simp only [List.length_append]
    omega
  exact Yields.of_eq (run_bind_ok get_run) (reads_skipNested _ hgap hv hlength hrest)

end JsxWidgets.Json
