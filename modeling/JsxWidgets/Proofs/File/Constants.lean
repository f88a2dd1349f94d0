import JsxWidgets.Dart.Constant
import JsxWidgets.Proofs.Decimal.Numeral
import JsxWidgets.Proofs.Emission.Quoted

/-!
# Constants of a widget file

A literal value is written as a constant expression. A reader of Dart cuts the text into tokens
(`Dart.readTokens`): marks, numbers, words, and texts in quotes, inside which it stumbles over an
interpolation. What it finds are the tokens of the value (`Literal.IsJson.spells_dart`), and they
make up a constant expression (`Dart.ConstantExpression`): a null, a truth value, a number, a text,
or a list or map of such.

The tokens of a value determine it (`Literal.IsJson.tokens_unique`): the first one tells what the
value is, and is never a mark that closes or separates, so behind every item it is seen whether
another one follows. All statements carry what stands behind the part that is read.
-/

namespace JsxWidgets

namespace Dart

/-! ### Tokens -/

/-- **A token of a constant expression.** -/
inductive ConstantToken where
  /-- A bracket, a brace, a comma or a colon. -/
  | mark (c : Char)
  /-- A number. -/
  | number (chars : List Char)
  /-- A word. -/
  | word (chars : List Char)
  /-- A text in quotes. -/
  | text (said : String)
  deriving DecidableEq

/-- The marks. -/
def marks : List Char := ['[', ']', '\x7b', '\x7d', ',', ':']

/-- Whether a character is a mark. -/
def isMark (c : Char) : Bool := marks.contains c

/-- Whether a character may stand inside a number. -/
def isNumberCharacter (c : Char) : Bool := c.isDigit || ['.', 'e', 'E', '+', '-'].contains c

/-- A text in quotes ends in front of what stands behind it. -/
theorem length_lt_of_readText {said chars : List Char} {text behind : String}
    (h : readText said chars = .closed text behind) : behind.length < chars.length := by
  fun_induction readText said chars with
  | case2 said rest =>
    cases h
    simp
  | case7 said rest hbackslash d hline e hchar hinside hplain ih =>
    have := ih h
    simp only [List.length_cons]
    omega
  | case9 said c rest hquote hdollar hline hbackslash ih =>
    have := ih h
    simp only [List.length_cons]
    omega
  | case1 | case3 | case4 | case5 | case6 | case8 => cases h

/-- **Cuts a constant expression into tokens.** -/
def readTokens (chars : List Char) : Option (List ConstantToken) :=
  match chars with
  | [] => some []
  | c :: rest =>
    if c = ' ' then readTokens rest
    else if isMark c then (readTokens rest).map (.mark c :: ·)
    else if c.isDigit || c = '-' then
      (readTokens (rest.dropWhile isNumberCharacter)).map
        (.number (c :: rest.takeWhile isNumberCharacter) :: ·)
    else if c.isAlpha then
      (readTokens (rest.dropWhile Char.isAlpha)).map (.word (c :: rest.takeWhile Char.isAlpha) :: ·)
    else if c = '\x27' then
      match _hread : readText [] rest with
      | .closed said behind => (readTokens behind.toList).map (.text said :: ·)
      | _ => none
    else none
termination_by chars.length
decreasing_by
  · simp
  · simp
  · have := (List.dropWhile_sublist (l := rest) isNumberCharacter).length_le
    simp only [List.length_cons]
    omega
  · have := (List.dropWhile_sublist (l := rest) Char.isAlpha).length_le
    simp only [List.length_cons]
    omega
  · have := length_lt_of_readText _hread
    simp only [List.length_cons, String.length_toList]
    omega

/-- **The tokens of a constant expression.** -/
inductive ConstantExpression : List ConstantToken → Prop
  /-- The null value. -/
  | null : ConstantExpression [.word "null".toList]
  /-- The truth value true. -/
  | true : ConstantExpression [.word "true".toList]
  /-- The truth value false. -/
  | false : ConstantExpression [.word "false".toList]
  /-- A number. -/
  | number {n : Numeral} (h : n.WellFormed) : ConstantExpression [.number n.chars]
  /-- A text without interpolations. -/
  | text (said : String) : ConstantExpression [.text said]
  /-- A list. -/
  | list {items : List (List ConstantToken)} (h : ∀ ts ∈ items, ConstantExpression ts) :
    ConstantExpression (.mark '[' :: ([.mark ','].intercalate items ++ [.mark ']']))
  /-- A map from texts. -/
  | map {entries : List (String × List ConstantToken)}
    (h : ∀ e ∈ entries, ConstantExpression e.2) :
    ConstantExpression (.mark '\x7b' ::
      ([.mark ','].intercalate (entries.map fun e => .text e.1 :: .mark ':' :: e.2)
        ++ [.mark '\x7d']))

/-! ### Reading tokens -/

/-- Tokens in front of those that are read behind them. -/
def before (ts : List ConstantToken) (read : Option (List ConstantToken)) :
    Option (List ConstantToken) :=
  read.map (ts ++ ·)

theorem before_before (ts us : List ConstantToken) (read : Option (List ConstantToken)) :
    before ts (before us read) = before (ts ++ us) read := by
  cases read with
  | none => rfl
  | some vs => simp only [before, Option.map_some, List.append_assoc]

/-- **Characters that end a number and a word** in front of them. -/
def Stops (rest : List Char) : Prop :=
  ∀ c ∈ rest.head?, isNumberCharacter c = false ∧ c.isAlpha = false

theorem stops_cons {c : Char} (rest : List Char)
    (h : (isNumberCharacter c || c.isAlpha) = false) : Stops (c :: rest) := by
  intro d hd
  obtain rfl := Option.some.inj hd
  exact Bool.or_eq_false_iff.mp h

/-- What stands behind a run of characters ends it. -/
theorem takeWhile_run {p : Char → Bool} {run rest : List Char} (hrun : ∀ c ∈ run, p c = true)
    (hrest : ∀ c ∈ rest.head?, p c = false) :
    (run ++ rest).takeWhile p = run ∧ (run ++ rest).dropWhile p = rest := by
  rw [List.takeWhile_append_of_pos hrun, List.dropWhile_append_of_pos hrun]
  cases rest with
  | nil => simp
  | cons c rest => simp [hrest c rfl]

/-- A character that is unlike all marks is none. -/
theorem isMark_eq_false {p : Char → Bool} {c : Char} (hc : p c = true)
    (hmarks : (marks.all fun d => !p d) = true) : isMark c = false := by
  rw [Bool.eq_false_iff]
  intro hmark
  have hnot := List.all_eq_true.mp hmarks c (List.contains_iff_mem.mp hmark)
  rw [hc] at hnot
  cases hnot

section Reader

variable (rest : List Char)

/-- A blank is passed over. -/
theorem readTokens_blank : readTokens (' ' :: rest) = readTokens rest := by
  rw [readTokens.eq_def]
  exact if_pos rfl

/-- A mark is a token. -/
theorem readTokens_mark {c : Char} (h : isMark c = true) :
    readTokens (c :: rest) = before [.mark c] (readTokens rest) := by
  have hblank : c ≠ ' ' := by
    rintro rfl
    cases h
  rw [readTokens.eq_def]
  dsimp only
  rw [if_neg hblank, if_pos h]
  rfl

/-- So is a quoted text, up to its closing quote. -/
theorem readTokens_text (s : String) :
    readTokens ((quoted s).toList ++ rest) = before [.text s] (readTokens rest) := by
  have hquoted : (quoted s).toList ++ rest
      = '\x27' :: (s.toList.flatMap escape ++ '\x27' :: rest) := by
    simp only [quoted, escaped, String.toList_append, String.toList_ofList, List.append_assoc]
    rfl
  have hread := readText_escapes [] rest s.toList
  rw [List.nil_append, String.ofList_toList] at hread
  rw [hquoted, readTokens.eq_def]
  dsimp only
  -- a quote is neither blank nor mark, nor does a number or a word start with it
  rw [if_neg (by decide), if_neg (by decide), if_neg (by decide), if_neg (by decide), if_pos rfl]
  split
  next hclosed =>
    rw [hread] at hclosed
    cases hclosed
    rw [String.toList_ofList]
    rfl
  next hother => exact absurd hread (hother s (String.ofList rest))

variable {rest} (hrest : Stops rest)
include hrest

/-- So is a run of letters. -/
theorem readTokens_word {c : Char} {run : List Char} (h : (c :: run).all Char.isAlpha = true)
    (hnumber : (c.isDigit || c = '-') = false) :
    readTokens (c :: run ++ rest) = before [.word (c :: run)] (readTokens rest) := by
  have hword := List.all_eq_true.mp h
  have hc := hword c List.mem_cons_self
  have hrun := takeWhile_run (fun d hd => hword d (List.mem_cons_of_mem c hd))
    (fun d hd => (hrest d hd).2)
  have hblank : c ≠ ' ' := by
    rintro rfl
    cases hc
  have hmark : isMark c = false := isMark_eq_false hc (by decide)
  rw [List.cons_append, readTokens.eq_def]
  dsimp only
  rw [if_neg hblank, if_neg (by simp [hmark]), if_neg (by simp [hnumber]), if_pos hc, hrun.1,
    hrun.2]
  rfl

/-- So is a run of characters of a number. -/
theorem readTokens_run {c : Char} {run : List Char} (hc : (c.isDigit || c = '-') = true)
    (hnumber : ∀ d ∈ run, isNumberCharacter d = true) :
    readTokens (c :: run ++ rest) = before [.number (c :: run)] (readTokens rest) := by
  have hrun := takeWhile_run hnumber (fun d hd => (hrest d hd).1)
  have hblank : c ≠ ' ' := by
    rintro rfl
    cases hc
  have hmark : isMark c = false :=
    isMark_eq_false (p := fun d => d.isDigit || d = '-') hc (by decide)
  rw [List.cons_append, readTokens.eq_def]
  dsimp only
  rw [if_neg hblank, if_neg (by simp [hmark]), if_pos hc, hrun.1, hrun.2]
  rfl

end Reader

/-- All of a numeral belongs to a number. -/
theorem isNumberCharacter_of_mem_chars {n : Numeral} (h : n.WellFormed) :
    ∀ d ∈ n.chars, isNumberCharacter d = true := by
  have hdigit : ∀ d : Char, d.isDigit = true → isNumberCharacter d = true := by
    intro d hd
    rw [isNumberCharacter, hd, Bool.true_or]
  have hsign : ∀ b, ∀ d ∈ Numeral.sign b, isNumberCharacter d = true := by
    intro b
    cases b with
    | true => exact List.forall_mem_singleton.mpr rfl
    | false => exact List.forall_mem_nil _
  -- the point is the one character among the digits that is no digit
  have hnumeral : ∀ d ∈ Binary64.numeral n.whole n.places, isNumberCharacter d = true := by
    intro d hd
    by_cases hpoint : d = '.'
    · exact hpoint ▸ rfl
    · refine hdigit d (by_contra fun hnot => ?_)
      exact Numeral.notMem_numeral h (Bool.eq_false_iff.mpr hnot) hpoint hd
  have hpower : ∀ d ∈ Numeral.powerChars n.power, isNumberCharacter d = true := by
    cases n.power with
    | none => exact List.forall_mem_nil _
    | some p =>
      rw [Numeral.powerChars, Option.elim_some, Numeral.toList_toString]
      refine List.forall_mem_cons.mpr ⟨rfl, List.forall_mem_append.mpr ⟨hsign _, ?_⟩⟩
      exact fun d hd => hdigit d (Binary64.digitsOf_digits _ d hd)
  exact List.forall_mem_append.mpr ⟨hsign _, List.forall_mem_append.mpr ⟨hnumeral, hpower⟩⟩

/-- A numeral starts with a digit or a sign. -/
theorem exists_chars_eq {n : Numeral} (h : n.WellFormed) :
    ∃ c run, n.chars = c :: run ∧ (c.isDigit || c = '-') = true := by
  obtain ⟨c, whole, hwhole⟩ := List.exists_cons_of_ne_nil h.nonempty
  have hc : c.isDigit = true := h.digits c (by simp [hwhole])
  rw [Numeral.chars, Binary64.numeral, hwhole]
  cases n.negative with
  | true => exact ⟨'-', _, rfl, rfl⟩
  | false => exact ⟨c, _, rfl, by rw [hc, Bool.true_or]⟩

/-! ### Texts and their tokens -/

/-- **A text spells tokens**: they are read in front of anything that ends them. -/
def Spells (text : List Char) (ts : List ConstantToken) : Prop :=
  ∀ rest, Stops rest → readTokens (text ++ rest) = before ts (readTokens rest)

/-- A run of letters spells a word. -/
theorem spells_word {c : Char} {run : List Char} (h : (c :: run).all Char.isAlpha = true)
    (hnumber : (c.isDigit || c = '-') = false) : Spells (c :: run) [.word (c :: run)] :=
  fun _ hrest => readTokens_word hrest h hnumber

/-- A numeral spells a number. -/
theorem spells_number {n : Numeral} (h : n.WellFormed) : Spells n.chars [.number n.chars] := by
  intro rest hrest
  obtain ⟨c, run, heq, hc⟩ := exists_chars_eq h
  have hall := isNumberCharacter_of_mem_chars h
  rw [heq] at hall ⊢
  exact readTokens_run hrest hc fun d hd => hall d (List.mem_cons_of_mem c hd)

/-- A quoted text spells the text. -/
theorem spells_quoted (s : String) : Spells (quoted s).toList [.text s] :=
  fun rest _ => readTokens_text rest s

/-- What stands between two marks. -/
theorem Spells.enclosed {text : List Char} {ts : List ConstantToken} (h : Spells text ts)
    {opening closing : Char} (hopening : isMark opening = true) (hclosing : isMark closing = true)
    (hstops : (isNumberCharacter closing || closing.isAlpha) = false) :
    Spells (opening :: (text ++ [closing])) (.mark opening :: (ts ++ [.mark closing])) := by
  intro rest _
  rw [List.cons_append, readTokens_mark _ hopening, List.append_assoc, List.singleton_append,
    h _ (stops_cons rest hstops), readTokens_mark _ hclosing, before_before, before_before]
  rfl

/-- A name in quotes in front of a value. -/
theorem Spells.entry {text : List Char} {ts : List ConstantToken} (h : Spells text ts)
    (name : String) :
    Spells ((quoted name).toList ++ ':' :: ' ' :: text) (.text name :: .mark ':' :: ts) := by
  intro rest hrest
  rw [List.append_assoc, readTokens_text, List.cons_append, readTokens_mark _ rfl, List.cons_append,
    readTokens_blank, h rest hrest, before_before, before_before]
  rfl

/-- Items with commas between them. -/
theorem spells_intercalate {α : Type} {text : α → String} {tokens : α → List ConstantToken}
    {as : List α} (h : ∀ a ∈ as, Spells (text a).toList (tokens a)) :
    Spells (", ".intercalate (as.map text)).toList ([.mark ','].intercalate (as.map tokens)) := by
  induction as with
  | nil =>
    intro rest _
    exact (Option.map_id_apply ..).symm
  | cons a as ih =>
    intro rest hrest
    have ha := h a List.mem_cons_self
    -- only between two items stands a comma, with a blank behind it
    cases as with
    | nil =>
      rw [List.map_singleton, List.map_singleton, String.intercalate_singleton,
        List.intercalate_singleton]
      exact ha rest hrest
    | cons b as =>
      have htext : (", ".intercalate ((a :: b :: as).map text)).toList ++ rest = (text a).toList
          ++ ',' :: ' ' :: ((", ".intercalate ((b :: as).map text)).toList ++ rest) := by
        rw [List.map_cons, List.map_cons, String.intercalate_cons_cons, ← List.map_cons,
          String.toList_append, String.toList_append, List.append_assoc, List.append_assoc]
        rfl
      rw [htext, ha _ (stops_cons _ rfl), readTokens_mark _ rfl, readTokens_blank,
        ih (fun c hc => h c (List.mem_cons_of_mem a hc)) rest hrest, before_before, before_before,
        List.map_cons (l := b :: as), List.map_cons, List.intercalate_cons_cons]

/-! ### Items and what stands between them -/

section Separated

variable {α : Type} {tokens : α → List ConstantToken}

/-- The items of a row that is not empty. -/
theorem intercalate_cons (a : α) (as : List α) :
    [.mark ','].intercalate ((a :: as).map tokens)
      = tokens a ++ as.flatMap fun b => .mark ',' :: tokens b := by
  induction as generalizing a with
  | nil => simp
  | cons b as ih =>
    rw [List.map_cons, List.map_cons, List.intercalate_cons_cons, ← List.map_cons, ih,
      List.flatMap_cons, List.append_assoc]
    rfl

variable {as bs : List α} {closing : Char}
  (hunique : ∀ a ∈ as, ∀ b ∈ bs, ∀ r s, tokens a ++ r = tokens b ++ s → a = b ∧ r = s)
include hunique

/-- Behind an item, a comma tells that another one follows. -/
theorem flatMap_unique (hclosing : closing ≠ ',') {r s : List ConstantToken}
    (h : (as.flatMap fun a => .mark ',' :: tokens a) ++ .mark closing :: r
      = (bs.flatMap fun b => .mark ',' :: tokens b) ++ .mark closing :: s) :
    as = bs ∧ r = s := by
  -- the comma tells that an item follows, the closing mark that none does
  induction as generalizing bs with
  | nil =>
    cases bs with
    | nil => exact ⟨rfl, (List.cons.inj h).2⟩
    | cons b bs => exact absurd (ConstantToken.mark.inj (List.cons.inj h).1) hclosing
  | cons a as ih =>
    cases bs with
    | nil => exact absurd (ConstantToken.mark.inj (List.cons.inj h).1).symm hclosing
    | cons b bs =>
      simp only [List.flatMap_cons, List.cons_append, List.append_assoc] at h
      obtain ⟨rfl, hrest⟩ :=
        hunique a List.mem_cons_self b List.mem_cons_self _ _ (List.cons.inj h).2
      obtain ⟨rfl, hr⟩ := ih (fun c hc d hd =>
        hunique c (List.mem_cons_of_mem a hc) d (List.mem_cons_of_mem a hd)) hrest
      exact ⟨rfl, hr⟩

/-- **Items are read in one way**, if an item is, and does not start with what closes the row. -/
theorem intercalate_unique (hclosing : closing ≠ ',')
    (hstart : ∀ a r, (tokens a ++ r).head? ≠ some (.mark closing)) {r s : List ConstantToken}
    (h : [.mark ','].intercalate (as.map tokens) ++ .mark closing :: r
      = [.mark ','].intercalate (bs.map tokens) ++ .mark closing :: s) :
    as = bs ∧ r = s := by
  -- no item starts with the closing mark, so the empty list is told apart at once
  cases as with
  | nil =>
    cases bs with
    | nil => exact ⟨rfl, (List.cons.inj h).2⟩
    | cons b bs =>
      rw [intercalate_cons, List.append_assoc] at h
      exact absurd (congrArg List.head? h.symm) (hstart b _)
  | cons a as =>
    cases bs with
    | nil =>
      rw [intercalate_cons, List.append_assoc] at h
      exact absurd (congrArg List.head? h) (hstart a _)
    | cons b bs =>
      rw [intercalate_cons, intercalate_cons, List.append_assoc, List.append_assoc] at h
      obtain ⟨rfl, hrest⟩ := hunique a List.mem_cons_self b List.mem_cons_self _ _ h
      obtain ⟨rfl, hr⟩ := flatMap_unique (fun c hc d hd =>
        hunique c (List.mem_cons_of_mem a hc) d (List.mem_cons_of_mem a hd)) hclosing hrest
      exact ⟨rfl, hr⟩

end Separated

end Dart

/-! ### Values -/

namespace Literal

open Dart

/-- **A JSON value**: every number in it that is not an integer is a double. -/
inductive IsJson : Literal → Prop
  /-- The null value. -/
  | null : IsJson .null
  /-- A truth value. -/
  | bool (value : Bool) : IsJson (.bool value)
  /-- An integer. -/
  | int (value : ℤ) : IsJson (.int value)
  /-- Any other number. -/
  | real (negative : Bool) {magnitude : Binary64} (h : magnitude.IsDouble) :
    IsJson (.real negative magnitude)
  /-- A text. -/
  | text (value : String) : IsJson (.text value)
  /-- A list of values. -/
  | array {items : List Literal} (h : ∀ v ∈ items, IsJson v) : IsJson (.array items)
  /-- Values by name. -/
  | object {fields : List (String × Literal)} (h : ∀ f ∈ fields, IsJson f.2) :
    IsJson (.object fields)

theorem dartItems_eq_map (items : List Literal) : dartItems items = items.map dart := by
  induction items with
  | nil => rw [dartItems, List.map_nil]
  | cons v items ih => rw [dartItems, List.map_cons, ih]

theorem dartEntries_eq_map (fields : List (String × Literal)) :
    dartEntries fields = fields.map fun f => quoted f.1 ++ ": " ++ f.2.dart := by
  induction fields with
  | nil => rw [dartEntries, List.map_nil]
  | cons f fields ih => rw [dartEntries, List.map_cons, ih]

mutual

/-- **The tokens of a value.** -/
def tokens : Literal → List ConstantToken
  | .null => [.word "null".toList]
  | .bool b => [.word (if b then "true".toList else "false".toList)]
  | .int n => [.number (toString n).toList]
  | .real negative v => [.number (realText negative v).toList]
  | .text s => [.text s]
  | .array items => .mark '[' :: ([.mark ','].intercalate (itemTokens items) ++ [.mark ']'])
  | .object fields =>
    .mark '\x7b' :: ([.mark ','].intercalate (entryTokens fields) ++ [.mark '\x7d'])

/-- The tokens of the items of a list. -/
def itemTokens : List Literal → List (List ConstantToken)
  | [] => []
  | v :: vs => tokens v :: itemTokens vs

/-- The tokens of the entries of a map. -/
def entryTokens : List (String × Literal) → List (List ConstantToken)
  | [] => []
  | (k, v) :: rest => (.text k :: .mark ':' :: tokens v) :: entryTokens rest

end

theorem itemTokens_eq_map (items : List Literal) : itemTokens items = items.map tokens := by
  induction items with
  | nil => rw [itemTokens, List.map_nil]
  | cons v items ih => rw [itemTokens, List.map_cons, ih]

theorem entryTokens_eq_map (fields : List (String × Literal)) :
    entryTokens fields = fields.map fun f => .text f.1 :: .mark ':' :: f.2.tokens := by
  induction fields with
  | nil => rw [entryTokens, List.map_nil]
  | cons f fields ih => rw [entryTokens, List.map_cons, ih]

/-- **The constant of a value spells the tokens of the value.** -/
theorem IsJson.spells_dart {v : Literal} (hv : v.IsJson) : Spells v.dart.toList v.tokens := by
  induction hv with
  | null =>
    rw [dart, tokens]
    exact spells_word rfl rfl
  | bool b =>
    rw [dart, tokens]
    cases b with
    | true => exact spells_word rfl rfl
    | false => exact spells_word rfl rfl
  | int n =>
    obtain ⟨numeral, hwritten, heq⟩ := exists_numeral_int n
    rw [dart, tokens, heq]
    exact spells_number (isWrittenAs_wellFormed hwritten)
  | real negative h =>
    obtain ⟨numeral, hwritten, heq⟩ := exists_numeral_real negative h
    rw [dart, tokens, heq]
    exact spells_number (isWrittenAs_wellFormed hwritten)
  | text s =>
    rw [dart, tokens]
    exact spells_quoted s
  | @array items _ ih =>
    rw [dart, tokens, dartItems_eq_map, itemTokens_eq_map, String.toList_append,
      String.toList_append]
    exact (spells_intercalate ih).enclosed rfl rfl rfl
  | @object fields _ ih =>
    -- an entry is a text, a colon and the value, which is read by induction
    have hentry : ∀ f ∈ fields, Spells (quoted f.1 ++ ": " ++ f.2.dart).toList
        (.text f.1 :: .mark ':' :: f.2.tokens) := by
      intro f hf
      rw [String.toList_append, String.toList_append, List.append_assoc]
      exact (ih f hf).entry f.1
    rw [dart, tokens, dartEntries_eq_map, entryTokens_eq_map, String.toList_append,
      String.toList_append]
    exact (spells_intercalate hentry).enclosed rfl rfl rfl

/-- **The tokens of a value are a constant expression.** -/
theorem IsJson.constantExpression_tokens {v : Literal} (hv : v.IsJson) :
    ConstantExpression v.tokens := by
  induction hv with
  | null =>
    rw [tokens]
    exact .null
  | bool b =>
    rw [tokens]
    cases b with
    | true => exact .true
    | false => exact .false
  | int n =>
    obtain ⟨numeral, hwritten, heq⟩ := exists_numeral_int n
    rw [tokens, heq]
    exact .number (isWrittenAs_wellFormed hwritten)
  | real negative h =>
    obtain ⟨numeral, hwritten, heq⟩ := exists_numeral_real negative h
    rw [tokens, heq]
    exact .number (isWrittenAs_wellFormed hwritten)
  | text s =>
    rw [tokens]
    exact .text s
  | array _ ih =>
    rw [tokens, itemTokens_eq_map]
    exact .list (List.forall_mem_map.mpr ih)
  | @object fields _ ih =>
    -- the tokens of a map are gathered as pairs of a key and what spells its value
    have hentries : entryTokens fields = (fields.map fun f => (f.1, f.2.tokens)).map
        fun e => .text e.1 :: .mark ':' :: e.2 := by
      rw [entryTokens_eq_map, List.map_map]
      rfl
    rw [tokens, hentries]
    exact .map (List.forall_mem_map.mpr ih)

/-! ### Tokens determine a value -/

/-- No value starts with what closes a collection. -/
theorem head?_tokens_ne (v : Literal) {closing : Char}
    (hsquare : closing ≠ '[') (hcurly : closing ≠ '\x7b') (r : List ConstantToken) :
    (v.tokens ++ r).head? ≠ some (.mark closing) := by
  intro hhead
  cases v with
  | array items =>
    rw [tokens] at hhead
    exact hsquare (ConstantToken.mark.inj (Option.some.inj hhead)).symm
  | object fields =>
    rw [tokens] at hhead
    exact hcurly (ConstantToken.mark.inj (Option.some.inj hhead)).symm
  | null | bool | int | real | text =>
    rw [tokens] at hhead
    cases hhead

/-- A value that is read as a number is one. -/
theorem IsJson.exists_numeral {v : Literal} (hv : v.IsJson) {chars : List Char}
    {r s : List ConstantToken} (h : v.tokens ++ r = .number chars :: s) :
    (∃ n, v.IsWrittenAs n ∧ chars = n.chars) ∧ r = s := by
  cases hv with
  | int n =>
    rw [tokens] at h
    cases h
    exact ⟨exists_numeral_int n, rfl⟩
  | real negative hdouble =>
    rw [tokens] at h
    cases h
    exact ⟨exists_numeral_real negative hdouble, rfl⟩
  | null | bool | text | array | object =>
    rw [tokens] at h
    cases h

/-- A numeral is read as one number. -/
theorem IsJson.number_unique {v w : Literal} (hv : v.IsJson) (hw : w.IsJson) {chars : List Char}
    (htokens : v.tokens = [.number chars]) {r s : List ConstantToken}
    (h : v.tokens ++ r = w.tokens ++ s) : v = w ∧ r = s := by
  have hread : w.tokens ++ s = .number chars :: r := by
    rw [← h, htokens]
    rfl
  obtain ⟨⟨n, hn, rfl⟩, -⟩ := hv.exists_numeral (r := []) (s := []) (by rw [htokens]; rfl)
  obtain ⟨⟨n', hn', hchars⟩, hrest⟩ := hw.exists_numeral hread
  rw [Numeral.chars_injective (isWrittenAs_wellFormed hn) (isWrittenAs_wellFormed hn') hchars] at hn
  exact ⟨hn.unique hn', hrest.symm⟩

/-- **Tokens are those of one value**, and tell where it ends. -/
theorem IsJson.tokens_unique {v w : Literal} (hv : v.IsJson) (hw : w.IsJson)
    {r s : List ConstantToken} (h : v.tokens ++ r = w.tokens ++ s) : v = w ∧ r = s := by
  -- The first token leaves one kind of value for `w`, but for numbers, which their numerals tell.
  induction hv generalizing w r s with
  | null =>
    cases hw with
    | null => exact ⟨rfl, List.append_cancel_left h⟩
    | bool b => cases b <;> cases h
    | int | real | text | array | object =>
      rw [tokens, tokens] at h
      cases h
  | bool b =>
    cases hw with
    | null => cases b <;> cases h
    | bool b' =>
      cases b <;> cases b' <;> first | exact ⟨rfl, List.append_cancel_left h⟩ | cases h
    | int | real | text | array | object =>
      rw [tokens, tokens] at h
      cases h
  | int n => exact (IsJson.int n).number_unique hw (tokens.eq_3 n) h
  | real negative hdouble =>
    exact (IsJson.real negative hdouble).number_unique hw (tokens.eq_4 negative _) h
  | text said =>
    cases hw with
    | text said' =>
      rw [tokens, tokens] at h
      cases h
      exact ⟨rfl, rfl⟩
    | null | bool | int | real | array | object =>
      rw [tokens, tokens] at h
      cases h
  | @array items _ ih =>
    cases hw with
    | @array items' hitems' =>
      rw [tokens, tokens, itemTokens_eq_map, itemTokens_eq_map, List.cons_append, List.cons_append,
        List.append_assoc, List.append_assoc] at h
      obtain ⟨rfl, hr⟩ := intercalate_unique (fun a ha b hb r s => ih a ha (hitems' b hb))
        (by decide) (fun a r => head?_tokens_ne a (by decide) (by decide) r)
        (List.cons.inj h).2
      exact ⟨rfl, hr⟩
    | null | bool | int | real | text | object =>
      rw [tokens, tokens] at h
      cases h
  | @object fields _ ih =>
    cases hw with
    | @object fields' hfields' =>
      have hentry : ∀ f ∈ fields, ∀ g ∈ fields', ∀ r s,
          .text f.1 :: .mark ':' :: f.2.tokens ++ r = .text g.1 :: .mark ':' :: g.2.tokens ++ s →
            f = g ∧ r = s := by
        intro f hf g hg r s hfg
        obtain ⟨hname, hrest⟩ := List.cons.inj hfg
        obtain ⟨hvalue, hr⟩ := ih f hf (hfields' g hg) (List.cons.inj hrest).2
        exact ⟨Prod.ext (ConstantToken.text.inj hname) hvalue, hr⟩
      rw [tokens, tokens, entryTokens_eq_map, entryTokens_eq_map, List.cons_append,
        List.cons_append,
        List.append_assoc, List.append_assoc] at h
      obtain ⟨rfl, hr⟩ := intercalate_unique hentry (by decide) (fun f r => nofun)
        (List.cons.inj h).2
      exact ⟨rfl, hr⟩
    | null | bool | int | real | text | array =>
      rw [tokens, tokens] at h
      cases h

/-- **Constants determine the values they are written for.** Two JSON values have the same constant
only if they are equal, and every constant is a constant expression: cut into tokens, with no
interpolation inside any of its texts, it is a null, a truth value, a number, a text, or a list or
map of such. -/
theorem dart_faithful {v w : Literal} (hv : v.IsJson) (hw : w.IsJson) :
    (v.dart = w.dart → v = w) ∧
      ∃ ts, readTokens v.dart.toList = some ts ∧ ConstantExpression ts := by
  have hread : ∀ u : Literal, u.IsJson → readTokens u.dart.toList = some u.tokens := by
    intro u hu
    have hspells := hu.spells_dart [] (by rintro c ⟨⟩)
    rw [List.append_nil, show readTokens [] = some [] by rw [readTokens]] at hspells
    rw [hspells]
    exact congrArg some (List.append_nil _)
  refine ⟨fun h => ?_, v.tokens, hread v hv, hv.constantExpression_tokens⟩
  have htokens : v.tokens = w.tokens := by
    rw [← Option.some_inj, ← hread v hv, ← hread w hw, h]
  exact (hv.tokens_unique hw (congrArg (· ++ []) htokens)).1

/-- A quote and a dollar sign, a negative zero and an empty map. -/
theorem dart_faithful_nested :
    IsJson (.object [("it's", .array [.text "$5, ]", .real true .zero])]) ∧
      IsJson (.array [.object []]) ∧
      (dart (.object [("it's", .array [.text "$5, ]", .real true .zero])])
          = dart (.array [.object []]) →
        Literal.object [("it's", .array [.text "$5, ]", .real true .zero])]
          = .array [.object []]) ∧
      ∃ ts, readTokens (dart (.object
          [("it's", .array [.text "$5, ]", .real true .zero])])).toList = some ts ∧
        ConstantExpression ts := by
  have hlist : IsJson (.array [.text "$5, ]", .real true .zero]) :=
    .array (List.forall_mem_cons.mpr
      ⟨.text _, List.forall_mem_singleton.mpr (.real true Binary64.zero_isDouble)⟩)
  have hv : IsJson (.object [("it's", .array [.text "$5, ]", .real true .zero])]) :=
    .object (List.forall_mem_singleton.mpr hlist)
  have hw : IsJson (.array [.object []]) :=
    .array (List.forall_mem_singleton.mpr (.object nofun))
  exact ⟨hv, hw, dart_faithful hv hw⟩

example :
    dart (.object [("it's", .array [.text "$5, ]", .real true .zero]), ("", .object [])])
      = "\x7b'it\\'s': ['\\$5, ]', -0.0], '': \x7b\x7d\x7d" := by
  decide

end Literal

end JsxWidgets
