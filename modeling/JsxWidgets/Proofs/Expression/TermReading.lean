import Mathlib.Order.Filter.AtTopBot.Basic
import JsxWidgets.Proofs.Expression.Terms

/-!
# Reading terms

A reader of the texts of terms (`Term.readTerm`) that gives back what was written, but for the signs
in front of operands: it takes them one at a time, so an increment in front of an operand is two
signs to it (`Term.spread`). That it gives back a term is said for each way to read one. A term that
binds tightly enough to be accessed is read together with the accesses behind it, one that is made
by an operator together with the operators behind it (`Term.IsRead`). `Term.isRead` puts the ways
together, by induction on the term.

The reader takes fuel. Statements about it say what it gives with fuel enough (`Term.Settles`).
-/

namespace JsxWidgets.Expression.Term

open Syntax Glyph Filter

/-! ### Signs -/

/-- The sign that an increment or decrement consists of. -/
def sign : UpdateOp → UnaryOp
  | .increment => .plus
  | .decrement => .minus

mutual

/-- A term in which an increment or decrement in front of an operand is two signs. -/
def spread : Term → Term
  | .paren e => .paren e.spread
  | .member o isHidden t => .member o.spread isHidden t
  | .index o k => .index o.spread k.spread
  | .call f args => .call f.spread (spreadAll args)
  | .unary op e => .unary op e.spread
  | .update op inFront e =>
    if inFront then .unary (sign op) (.unary (sign op) e.spread) else .update op false e.spread
  | .binary op l r => .binary op l.spread r.spread
  | .conditional c y n => .conditional c.spread y.spread n.spread
  | t => t

/-- Several terms in which increments and decrements are spread. -/
def spreadAll : List Term → List Term
  | [] => []
  | a :: rest => a.spread :: spreadAll rest

end

/-! ### The reader -/

/-- The characters at the front that satisfy a condition, and what stands behind them. -/
def span (p : Char → Bool) : List Glyph → List Char × List Glyph
  | .mark c :: rest =>
    if p c then (c :: (span p rest).1, (span p rest).2) else ([], .mark c :: rest)
  | gs => ([], gs)

/-- The number at the front, and what stands behind it. A point belongs to it only if a digit
follows. -/
def spanNumeral (gs : List Glyph) : List Char × List Glyph :=
  match span Char.isDigit gs with
  | (whole, .mark '.' :: behind) =>
    if (span Char.isDigit behind).1 = [] then (whole, .mark '.' :: behind)
    else (Binary64.numeral whole (span Char.isDigit behind).1, (span Char.isDigit behind).2)
  | (whole, rest) => (whole, rest)

/-- What a word stands for where an operand is expected. -/
def ofWord (w : String) : Term :=
  if w = "this" then .this
  else if w = "true" then .bool true
  else if w = "false" then .bool false
  else if w = "null" then .null
  else .name w

/-- The operator in front of an operand that a character spells. -/
def signOp? (c : Char) : Option UnaryOp :=
  if c = '-' then some .minus
  else if c = '+' then some .plus
  else if c = '!' then some .logicalNot
  else if c = '~' then some .bitNot
  else none

/-- The operator in front of an operand that a word spells. -/
def wordOp? (w : String) : Option UnaryOp :=
  if w = "typeof" then some .typeOf
  else if w = "void" then some .void
  else if w = "delete" then some .delete
  else none

/-- The operator in front of an operand that stands at the front, and what stands behind it. -/
def unaryAt? : List Glyph → Option (UnaryOp × List Glyph)
  | .mark c :: rest =>
    match signOp? c with
    | some op => some (op, rest)
    | none =>
      match wordOp? (String.ofList (span Text.isIdentifierPart (.mark c :: rest)).1),
        (span Text.isIdentifierPart (.mark c :: rest)).2 with
      | some op, .mark ' ' :: behind => some (op, behind)
      | _, _ => none
  | _ => none

/-- The operator between operands that stands at the front, and what stands behind it. -/
def operatorAt? : List Glyph → Option (BinaryOp × List Glyph)
  | .mark ' ' :: rest =>
    match span (· ≠ ' ') rest with
    | (cs, .mark ' ' :: behind) =>
      (BinaryOp.all.find? (·.text = String.ofList cs)).map fun op => (op, behind)
    | _ => none
  | _ => none

/-- No arguments, if a closing parenthesis stands at the front, and what stands behind it. -/
def closeAt? : List Glyph → Option (List Term × List Glyph)
  | .mark ')' :: rest => some ([], rest)
  | _ => none

section Reader

variable (value : String → Binary64)

/-- The text, the number or the word at the front, and what stands behind it. -/
def atomAt? : List Glyph → Option (Term × List Glyph)
  | .quoted v :: rest => some (.string v, rest)
  | .mark c :: rest =>
    if c.isDigit then
      some (.number (value (String.ofList (spanNumeral (.mark c :: rest)).1)),
        (spanNumeral (.mark c :: rest)).2)
    else if Text.isIdentifierPart c then
      some (ofWord (String.ofList (span Text.isIdentifierPart (.mark c :: rest)).1),
        (span Text.isIdentifierPart (.mark c :: rest)).2)
    else none
  | [] => none

mutual

/-- Reads what stands at the beginning of accesses and calls. -/
def readRoot : Nat → List Glyph → Option (Term × List Glyph)
  | 0, _ => none
  | n + 1, .mark '(' :: rest =>
    match readTerm n rest with
    | some (e, .mark ')' :: rest) => some (.paren e, rest)
    | _ => none
  | _ + 1, gs => atomAt? value gs

/-- Reads accesses, calls and an update operator behind a term. -/
def readAccesses : Nat → Term → List Glyph → Option (Term × List Glyph)
  | 0, _, _ => none
  | n + 1, left, .mark '.' :: .mark '#' :: rest =>
    readAccesses n (.member left true (String.ofList (span Text.isIdentifierPart rest).1))
      (span Text.isIdentifierPart rest).2
  | n + 1, left, .mark '.' :: rest =>
    readAccesses n (.member left false (String.ofList (span Text.isIdentifierPart rest).1))
      (span Text.isIdentifierPart rest).2
  | n + 1, left, .mark '[' :: rest =>
    match readTerm n rest with
    | some (k, .mark ']' :: rest) => readAccesses n (.index left k) rest
    | _ => none
  | n + 1, left, .mark '(' :: rest =>
    match readArguments n rest with
    | some (args, rest) => readAccesses n (.call left args) rest
    | none => none
  | _ + 1, left, .mark '+' :: .mark '+' :: rest => some (.update .increment false left, rest)
  | _ + 1, left, .mark '-' :: .mark '-' :: rest => some (.update .decrement false left, rest)
  | _ + 1, left, gs => some (left, gs)

/-- Reads arguments and the parenthesis behind them. -/
def readArguments : Nat → List Glyph → Option (List Term × List Glyph)
  | 0, _ => none
  | n + 1, gs =>
    match readTerm n gs with
    | some (a, rest) => (readFurther n rest).map fun (args, rest) => (a :: args, rest)
    | none => closeAt? gs

/-- Reads arguments behind another one, and the parenthesis behind them. -/
def readFurther : Nat → List Glyph → Option (List Term × List Glyph)
  | 0, _ => none
  | _ + 1, .mark ')' :: rest => some ([], rest)
  | n + 1, .mark ',' :: .mark ' ' :: rest =>
    match readTerm n rest with
    | some (a, rest) => (readFurther n rest).map fun (args, rest) => (a :: args, rest)
    | none => none
  | _ + 1, _ => none

/-- Reads an operand. -/
def readUnary : Nat → List Glyph → Option (Term × List Glyph)
  | 0, _ => none
  | n + 1, gs =>
    match unaryAt? gs with
    | some (op, rest) => (readUnary n rest).map fun (e, rest) => (.unary op e, rest)
    | none =>
      match readRoot n gs with
      | some (root, rest) => readAccesses n root rest
      | none => none

/-- Reads operators that bind tighter than the given number, with operands, behind an operand. -/
def readMore : Nat → Nat → Term → List Glyph → Option (Term × List Glyph)
  | 0, _, _, _ => none
  | n + 1, limit, left, gs =>
    match operatorAt? gs with
    | none => some (left, gs)
    | some (op, rest) =>
      if op.precedence ≤ limit then some (left, gs)
      else
        match readOperations n (floor op) rest with
        | some (right, rest) => readMore n limit (.binary op left right) rest
        | none => none

/-- Reads operands with operators between them that bind tighter than the given number. -/
def readOperations : Nat → Nat → List Glyph → Option (Term × List Glyph)
  | 0, _, _ => none
  | n + 1, limit, gs =>
    match readUnary n gs with
    | some (first, rest) => readMore n limit first rest
    | none => none

/-- Reads a term. -/
def readTerm : Nat → List Glyph → Option (Term × List Glyph)
  | 0, _ => none
  | n + 1, gs =>
    match readOperations n 0 gs with
    | some (test, .mark ' ' :: .mark '?' :: .mark ' ' :: rest) =>
      match readTerm n rest with
      | some (yes, .mark ' ' :: .mark ':' :: .mark ' ' :: rest) =>
        (readTerm n rest).map fun (no, rest) => (.conditional test yes no, rest)
      | _ => none
    | other => other

end

end Reader

/-! ### Runs of characters -/

/-- The next glyph is no character that satisfies a condition. -/
def StopsAt (p : Char → Bool) (rest : List Glyph) : Prop :=
  ∀ c behind, rest = .mark c :: behind → p c = false

/-- A run of characters stops at any other character. -/
theorem stopsAt_mark {p : Char → Bool} {c : Char} (h : p c = false) (rest : List Glyph) :
    StopsAt p (.mark c :: rest) := by
  intro c' behind heq
  injection heq with hc _
  injection hc with hc
  exact hc ▸ h

/-- It takes all characters up to where it stops. -/
theorem span_append {p : Char → Bool} {cs : List Char} (h : ∀ c ∈ cs, p c = true)
    {rest : List Glyph} (hrest : StopsAt p rest) : span p (cs.map .mark ++ rest) = (cs, rest) := by
  induction cs with
  | nil =>
    match rest, hrest with
    | [], _ => rfl
    | .quoted v :: rest, _ => rfl
    | .mark c :: rest, hrest =>
      rw [List.map_nil, List.nil_append, span, hrest c rest rfl, if_neg Bool.false_ne_true]
  | cons c cs ih =>
    obtain ⟨hc, hcs⟩ := List.forall_mem_cons.mp h
    rw [List.map_cons, List.cons_append, span, if_pos hc, ih hcs]

/-- It takes none where it stops at once. -/
theorem span_of_stopsAt {p : Char → Bool} {rest : List Glyph} (h : StopsAt p rest) :
    span p rest = ([], rest) :=
  span_append (fun _ hc => absurd hc List.not_mem_nil) h

/-- What starts a word is no digit. -/
theorem isDigit_of_start {c : Char} (h : Text.isIdentifierStart c = true) : c.isDigit = false := by
  by_contra hdigit
  rw [Bool.not_eq_false, Char.isDigit, Bool.and_eq_true, decide_eq_true_eq, decide_eq_true_eq]
    at hdigit
  have hlow : 48 ≤ c.toNat := UInt32.le_iff_toNat_le.mp hdigit.1
  have hhigh : c.toNat ≤ 57 := UInt32.le_iff_toNat_le.mp hdigit.2
  rw [Text.isIdentifierStart, if_pos (by omega)] at h
  simp only [Text.isAsciiLetter, Bool.or_eq_true, Bool.and_eq_true, decide_eq_true_eq] at h
  -- the digits lie below the letters, and neither sign is one
  rcases h with ((h | h) | rfl) | rfl
  · have hletter : 97 ≤ c.toNat := UInt32.le_iff_toNat_le.mp h.1
    omega
  · have hletter : 65 ≤ c.toNat := UInt32.le_iff_toNat_le.mp h.1
    omega
  · exact absurd hlow (by decide)
  · exact absurd hhigh (by decide)

/-- **Neither a word nor a number goes on**: what stands next is no character of a word, and no
point with a digit behind it. -/
structure IsOpen (rest : List Glyph) : Prop where
  /-- No character of a word stands next. -/
  word : StopsAt Text.isIdentifierPart rest
  /-- No point with a digit behind it stands next. -/
  point : ∀ behind, rest = .mark '.' :: behind → StopsAt Char.isDigit behind

/-- Where no number goes on, no digit stands next. -/
theorem IsOpen.digit {rest : List Glyph} (h : IsOpen rest) : StopsAt Char.isDigit rest := by
  intro c behind heq
  by_contra hdigit
  have hpart := isIdentifierPart_of_isDigit (Bool.not_eq_false _ ▸ hdigit)
  rw [h.word c behind heq] at hpart
  exact absurd hpart Bool.false_ne_true

/-- A number is read up to its end. -/
theorem spanNumeral_append {whole places : List Char} (h : Binary64.AreDigits whole places)
    {rest : List Glyph} (hrest : IsOpen rest) :
    spanNumeral ((Binary64.numeral whole places).map .mark ++ rest)
      = (Binary64.numeral whole places, rest) := by
  have hwhole : ∀ c ∈ whole, c.isDigit = true := fun c hc =>
    h.digits c (List.mem_append_left _ hc)
  have hplaces : ∀ c ∈ places, c.isDigit = true := fun c hc =>
    h.digits c (List.mem_append_right _ hc)
  by_cases hnil : places = []
  · have hspan := span_append hwhole hrest.digit
    rw [spanNumeral, Binary64.numeral, if_pos hnil, List.append_nil, hspan]
    split
    · next heq =>
      obtain ⟨rfl, rfl⟩ := Prod.mk.inj heq
      rw [span_of_stopsAt (hrest.point _ rfl), if_pos rfl]
    · next heq => exact heq.symm
  · have hpoint : StopsAt Char.isDigit (.mark '.' :: (places.map .mark ++ rest)) :=
      stopsAt_mark (by decide) _
    have hspan := span_append hwhole hpoint
    rw [spanNumeral, Binary64.numeral, if_neg hnil, List.map_append, List.map_cons,
      List.append_assoc, List.cons_append, hspan]
    simp only [span_append hplaces hrest.digit, if_neg hnil, Binary64.numeral]

/-! ### Operators -/

/-- The operator that is written in front of an operand is found. -/
theorem unaryAt?_text (op : UnaryOp) (gs : List Glyph) :
    unaryAt? (marks op.text ++ if op.isWord then .mark ' ' :: gs else gs) = some (op, gs) := by
  cases op <;> rfl

/-- So is the one that is written between operands. -/
theorem operatorAt?_text (op : BinaryOp) (gs : List Glyph) :
    operatorAt? (.mark ' ' :: (marks op.text ++ .mark ' ' :: gs)) = some (op, gs) := by
  have hblank : op.text.toList.all (fun c => decide (c ≠ ' ')) = true := by cases op <;> decide
  have hstop : StopsAt (fun c => decide (c ≠ ' ')) (.mark ' ' :: gs) := stopsAt_mark (by decide) gs
  have hspan := span_append (List.all_eq_true.mp hblank) hstop
  have hfind : BinaryOp.all.find? (·.text = op.text) = some op := by cases op <;> decide
  rw [operatorAt?, marks, hspan]
  simp only [String.ofList_toList, hfind, Option.map_some]

/-- A character of a word is no sign. -/
theorem signOp?_of_isIdentifierPart {c : Char} (h : Text.isIdentifierPart c = true) :
    signOp? c = none := by
  have hne : ∀ d, Text.isIdentifierPart d = false → c ≠ d := by
    rintro d hd rfl
    exact absurd (hd.symm.trans h) Bool.false_ne_true
  rw [signOp?, if_neg (hne '-' (by decide)), if_neg (hne '+' (by decide)),
    if_neg (hne '!' (by decide)), if_neg (hne '~' (by decide))]

/-- A word that is no operator in front of an operand is not taken for one. -/
theorem unaryAt?_mark {c : Char} {rest : List Glyph} (h : Text.isIdentifierPart c = true)
    (hop : wordOp? (String.ofList (span Text.isIdentifierPart (.mark c :: rest)).1) = none) :
    unaryAt? (.mark c :: rest) = none := by
  rw [unaryAt?, signOp?_of_isIdentifierPart h, hop]

/-- No operator starts with a digit. -/
theorem wordOp?_of_isDigit {c : Char} (h : c.isDigit = true) (cs : List Char) :
    wordOp? (String.ofList (c :: cs)) = none := by
  have hne : ∀ d ds, d.isDigit = false → String.ofList (c :: cs) ≠ String.ofList (d :: ds) := by
    intro d ds hd heq
    have hcons := String.ofList_injective heq
    injection hcons with hc _
    exact absurd (hd.symm.trans (hc ▸ h)) Bool.false_ne_true
  rw [wordOp?, if_neg (hne 't' ['y', 'p', 'e', 'o', 'f'] (by decide)),
    if_neg (hne 'v' ['o', 'i', 'd'] (by decide)),
    if_neg (hne 'd' ['e', 'l', 'e', 't', 'e'] (by decide))]

/-! ### Atoms -/

section Atoms

variable {value : String → Binary64}

/-- A word is read up to its end. -/
theorem atomAt?_word {w : String} (h : IsWord w) {rest : List Glyph} (hrest : IsOpen rest) :
    atomAt? value (marks w ++ rest) = some (ofWord w, rest) := by
  have hspan := span_append h.isIdentifierPart hrest.word
  obtain ⟨c, cs, hw, hstart, -⟩ := h
  have hdigit : ¬ c.isDigit = true := by
    rw [isDigit_of_start hstart]
    exact Bool.false_ne_true
  rw [hw, List.map_cons, List.cons_append] at hspan
  rw [marks, hw, List.map_cons, List.cons_append, atomAt?, if_neg hdigit,
    if_pos (isIdentifierPart_of_start hstart), hspan, ← hw, String.ofList_toList]

/-- A word that is no operator in front of an operand is not taken for one. -/
theorem unaryAt?_word {w : String} (h : IsWord w) (hop : wordOp? w = none) {rest : List Glyph}
    (hrest : IsOpen rest) : unaryAt? (marks w ++ rest) = none := by
  have hspan := span_append h.isIdentifierPart hrest.word
  obtain ⟨c, cs, hw, hstart, -⟩ := h
  rw [hw, List.map_cons, List.cons_append] at hspan
  rw [marks, hw, List.map_cons, List.cons_append]
  refine unaryAt?_mark (isIdentifierPart_of_start hstart) ?_
  rw [hspan, ← hw, String.ofList_toList]
  exact hop

/-- The text of a number starts with a digit. -/
theorem exists_marks_positional {v : Binary64} (h : v.IsDouble) :
    ∃ whole places c cs, Binary64.AreDigits whole places ∧
      marks v.positional = (Binary64.numeral whole places).map .mark ∧
      Binary64.numeral whole places = c :: cs ∧ c.isDigit = true := by
  cases v with
  | infinite => exact h.elim
  | finite m e =>
    obtain ⟨whole, places, hdigits, htext, -⟩ := Binary64.exists_positional_eq m e
    cases whole with
    | nil => exact absurd rfl hdigits.nonempty
    | cons c cs =>
      exact ⟨c :: cs, places, c, _, hdigits, congrArg (List.map Glyph.mark) htext, rfl,
        hdigits.digits c List.mem_cons_self⟩

/-- A number is read up to its end. -/
theorem atomAt?_number {v : Binary64} (h : v.IsDouble) (hvalue : value v.positional = v)
    {rest : List Glyph} (hrest : IsOpen rest) :
    atomAt? value (marks v.positional ++ rest) = some (.number v, rest) := by
  obtain ⟨whole, places, c, cs, hdigits, hmarks, hcons, hc⟩ := exists_marks_positional h
  have hspan := spanNumeral_append hdigits hrest
  have htext : String.ofList (Binary64.numeral whole places) = v.positional := by
    rw [marks] at hmarks
    rw [← List.map_injective_iff.mpr (fun _ _ hab => Glyph.mark.inj hab) hmarks,
      String.ofList_toList]
  rw [hmarks, hcons, List.map_cons, List.cons_append, atomAt?, if_pos hc]
  rw [hcons, List.map_cons, List.cons_append] at hspan
  rw [hspan, ← hcons, htext, hvalue]

/-- A number does not start with an operator. -/
theorem unaryAt?_number {v : Binary64} (h : v.IsDouble) (rest : List Glyph) :
    unaryAt? (marks v.positional ++ rest) = none := by
  obtain ⟨whole, places, c, cs, hdigits, hmarks, hcons, hc⟩ := exists_marks_positional h
  have hpart := isIdentifierPart_of_isDigit hc
  rw [hmarks, hcons, List.map_cons, List.cons_append]
  refine unaryAt?_mark hpart ?_
  rw [span, if_pos hpart]
  exact wordOp?_of_isDigit hc _

end Atoms

/-! ### What stands behind a term -/

/-- An operand ends here. -/
def IsClosed (rest : List Glyph) : Prop :=
  rest = [] ∨ ∃ c behind, rest = .mark c :: behind ∧ c ∈ [' ', ')', ']', ',']

/-- The operator that stands next, if there is one, binds no tighter than the given number. -/
def StopsOperators (limit : Nat) (rest : List Glyph) : Prop :=
  ∀ op behind, operatorAt? rest = some (op, behind) → op.precedence ≤ limit

/-- **A term ends here.** -/
structure IsEnded (rest : List Glyph) : Prop where
  /-- An operand ends. -/
  closed : IsClosed rest
  /-- No operator stands next. -/
  operator : operatorAt? rest = none
  /-- No choice between two values stands next. -/
  choice : ∀ behind, rest ≠ .mark ' ' :: .mark '?' :: .mark ' ' :: behind

/-- An operand ends in front of a blank, a closing bracket and a comma. -/
theorem IsClosed.mark {c : Char} (h : c ∈ [' ', ')', ']', ',']) (rest : List Glyph) :
    IsClosed (.mark c :: rest) := Or.inr ⟨c, rest, rfl, h⟩

/-- Where an operand ends, no word and no number goes on. -/
theorem IsClosed.isOpen {rest : List Glyph} (h : IsClosed rest) : IsOpen rest := by
  rcases h with rfl | ⟨c, behind, rfl, hc⟩
  · exact ⟨fun _ _ heq => absurd heq (by simp), fun _ heq => absurd heq (by simp)⟩
  · have hends : [' ', ')', ']', ','].all
        (fun c => !Text.isIdentifierPart c && c ≠ '.') = true := by
      decide
    have hend := List.all_eq_true.mp hends c hc
    rw [Bool.and_eq_true, Bool.not_eq_true', decide_eq_true_eq] at hend
    refine ⟨stopsAt_mark hend.1 _, fun behind' heq => ?_⟩
    injection heq with hmark _
    injection hmark with hmark
    exact absurd hmark hend.2

/-- In front of a bracket and of a comma a term ends. -/
theorem IsEnded.mark {c : Char} (h : c ∈ [')', ']', ',']) (rest : List Glyph) :
    IsEnded (.mark c :: rest) := by
  refine ⟨.mark (List.mem_cons_of_mem ' ' h) rest, ?_, ?_⟩
  · rcases List.mem_cons.mp h with rfl | h
    · rfl
    rcases List.mem_cons.mp h with rfl | h
    · rfl
    · rw [List.mem_singleton.mp h]
      rfl
  · intro behind heq
    injection heq with hmark _
    injection hmark with hmark
    subst hmark
    exact absurd h (by decide)

/-- A term ends where the text does. -/
theorem isEnded_nil : IsEnded [] := ⟨Or.inl rfl, rfl, fun _ heq => absurd heq (by simp)⟩

/-- In front of the colon of a choice a term ends. -/
theorem isEnded_colon (rest : List Glyph) :
    IsEnded (.mark ' ' :: .mark ':' :: .mark ' ' :: rest) := by
  refine ⟨.mark (by decide) _, rfl, fun behind heq => ?_⟩
  simp at heq

/-! ### Readings that settle -/

/-- With fuel enough, the result is the given one. -/
def Settles {α : Type} (f : ℕ → Option α) (r : Option α) : Prop := ∀ᶠ n in atTop, f n = r

/-- It is enough that a reading settles one step later. -/
theorem Settles.of_succ {α : Type} {f : ℕ → Option α} {r : Option α}
    (h : ∀ᶠ n in atTop, f (n + 1) = r) : Settles f r := by
  rw [Settles, ← map_add_atTop_eq_nat 1, eventually_map]
  exact h

section Reading

variable (value : String → Binary64)

/-- A term without operators is read, and what goes on behind it as well. -/
def ReadsAccess (t : Term) : Prop :=
  ∀ rest r, IsOpen rest → Settles (readAccesses value · t.spread rest) r →
    Settles (readUnary value · (t.glyphs ++ rest)) r

/-- A term is read as an operand. -/
def ReadsUnary (t : Term) : Prop :=
  ∀ rest, IsClosed rest → Settles (readUnary value · (t.glyphs ++ rest)) (some (t.spread, rest))

/-- A term is read as operands with operators between them, and what goes on behind it as well. -/
def ReadsOperations (t : Term) : Prop :=
  ∀ limit rest r, limit < t.tightness → IsClosed rest → StopsOperators t.hold rest →
    Settles (readMore value · limit t.spread rest) r →
    Settles (readOperations value · limit (t.glyphs ++ rest)) r

/-- A term is read. -/
def ReadsTerm (t : Term) : Prop :=
  ∀ rest, IsEnded rest → Settles (readTerm value · (t.glyphs ++ rest)) (some (t.spread, rest))

/-- **A term is read wherever it binds tightly enough.** -/
structure IsRead (t : Term) : Prop where
  /-- As something that is accessed or called. -/
  access : accessTightness ≤ t.tightness → ReadsAccess value t
  /-- As an operand. -/
  unary : operandTightness ≤ t.tightness → ReadsUnary value t
  /-- As operands with operators between them. -/
  operations : 0 < t.tightness → ReadsOperations value t
  /-- As a term. -/
  term : ReadsTerm value t

variable {value}

/-- Where an operand ends, no access is read behind it. -/
theorem readAccesses_of_isClosed {rest : List Glyph} (h : IsClosed rest) (left : Term) (n : ℕ) :
    readAccesses value (n + 1) left rest = some (left, rest) := by
  rcases h with rfl | ⟨c, behind, rfl, hc⟩
  · rfl
  · simp only [List.mem_cons, List.not_mem_nil, or_false] at hc
    rcases hc with rfl | rfl | rfl | rfl <;> rfl

/-- Where only looser operators follow, none is read. -/
theorem readMore_of_stopsOperators {limit : ℕ} {rest : List Glyph} (h : StopsOperators limit rest)
    (left : Term) (n : ℕ) : readMore value (n + 1) limit left rest = some (left, rest) := by
  rw [readMore]
  cases hop : operatorAt? rest with
  | none => rfl
  | some p =>
    obtain ⟨op, behind⟩ := p
    exact if_pos (h op behind hop)

/-- So reading further operators settles there. -/
theorem settles_readMore {limit : ℕ} {rest : List Glyph} (h : StopsOperators limit rest)
    (left : Term) : Settles (readMore value · limit left rest) (some (left, rest)) :=
  .of_succ (.of_forall (readMore_of_stopsOperators h left))

/-- A term without operators is read as an operand. -/
theorem ReadsAccess.unary {t : Term} (h : ReadsAccess value t) : ReadsUnary value t := by
  intro rest hrest
  exact h rest _ hrest.isOpen (.of_succ (.of_forall (readAccesses_of_isClosed hrest t.spread)))

/-- An operand is read as operands with operators between them. -/
theorem ReadsUnary.operations {t : Term} (h : ReadsUnary value t) : ReadsOperations value t := by
  intro limit rest r _ hrest _ hmore
  refine .of_succ ?_
  filter_upwards [h rest hrest, hmore] with n hunary hmore
  rw [readOperations, hunary]
  exact hmore

/-- These are read as a term, unless it binds like a choice. -/
theorem ReadsOperations.term {t : Term} (h : ReadsOperations value t) (ht : 0 < t.tightness) :
    ReadsTerm value t := by
  intro rest hrest
  have hstops : ∀ limit, StopsOperators limit rest := by
    intro limit op behind hop
    rw [hrest.operator] at hop
    cases hop
  have hoperations := h 0 rest _ ht hrest.closed (hstops _) (settles_readMore (hstops 0) t.spread)
  refine .of_succ ?_
  filter_upwards [hoperations] with n hn
  rw [readTerm, hn]
  split
  · next heq =>
    obtain ⟨-, rfl⟩ := Prod.mk.inj (Option.some.inj heq)
    exact absurd rfl (hrest.choice _)
  · rfl

/-- A term without operators is read everywhere if it is read as something that is accessed. -/
theorem IsRead.of_access {t : Term} (ht : t.tightness = accessTightness)
    (h : ReadsAccess value t) : IsRead value t where
  access _ := h
  unary _ := h.unary
  operations _ := h.unary.operations
  term := h.unary.operations.term (by rw [ht]; decide)

/-- A term that is an operator with its operand is read everywhere if it is read as an operand. -/
theorem IsRead.of_unary {t : Term} (ht : t.tightness = operandTightness)
    (h : ReadsUnary value t) : IsRead value t where
  access h' := absurd (ht ▸ h') (by decide)
  unary _ := h
  operations _ := h.operations
  term := h.operations.term (by rw [ht]; decide)

/-! ### Atoms and parentheses -/

/-- What is read at the front as a text, a number or a word begins the accesses. -/
theorem readRoot_of_atomAt? {gs : List Glyph} {p : Term × List Glyph}
    (h : atomAt? value gs = some p) (n : ℕ) : readRoot value (n + 1) gs = some p := by
  -- An opening parenthesis is no atom.
  have hparen : ∀ behind, atomAt? value (.mark '(' :: behind) = none := fun _ => rfl
  unfold readRoot
  split
  · contradiction
  · rw [hparen] at h
    cases h
  · exact h

/-- What stands at the beginning of accesses is read, and what goes on behind it as well. -/
theorem readsAccess_of_root {t : Term}
    (h : ∀ rest, IsOpen rest → unaryAt? (t.glyphs ++ rest) = none ∧
      Settles (readRoot value · (t.glyphs ++ rest)) (some (t.spread, rest))) :
    ReadsAccess value t := by
  intro rest r hrest haccesses
  obtain ⟨hunary, hroot⟩ := h rest hrest
  refine .of_succ ?_
  filter_upwards [hroot, haccesses] with n hroot haccesses
  rw [readUnary, hunary, hroot]
  exact haccesses

/-- An atom is read, and what goes on behind it as well. -/
theorem readsAccess_of_atom {t : Term}
    (h : ∀ rest, IsOpen rest → unaryAt? (t.glyphs ++ rest) = none ∧
      atomAt? value (t.glyphs ++ rest) = some (t.spread, rest)) : ReadsAccess value t :=
  readsAccess_of_root fun rest hrest =>
    ⟨(h rest hrest).1, .of_succ (.of_forall (readRoot_of_atomAt? (h rest hrest).2))⟩

/-- A word that stands for itself is read. -/
theorem readsAccess_of_word {t : Term} {w : String} (hw : IsWord w) (hop : wordOp? w = none)
    (hglyphs : t.glyphs = marks w) (hspread : t.spread = ofWord w) : ReadsAccess value t := by
  refine readsAccess_of_atom fun rest hrest => ?_
  rw [hglyphs, hspread]
  exact ⟨unaryAt?_word hw hop hrest, atomAt?_word hw hrest⟩

/-- The current object is written as a word. -/
theorem isWord_this : IsWord "this" := ⟨'t', ['h', 'i', 's'], rfl, by decide, by decide⟩

/-- So are the truth values. -/
theorem isWord_bool (b : Bool) : IsWord (if b then "true" else "false") := by
  cases b with
  | true => exact ⟨'t', ['r', 'u', 'e'], rfl, by decide, by decide⟩
  | false => exact ⟨'f', ['a', 'l', 's', 'e'], rfl, by decide, by decide⟩

/-- So is null. -/
theorem isWord_null : IsWord "null" := ⟨'n', ['u', 'l', 'l'], rfl, by decide, by decide⟩

/-- A name is neither a literal nor an operator. -/
theorem ofWord_of_notMem {w : String} (h : w ∉ operandWords) :
    ofWord w = .name w ∧ wordOp? w = none := by
  simp only [operandWords, List.mem_cons, List.not_mem_nil, or_false, not_or] at h
  obtain ⟨hthis, htrue, hfalse, hnull, htypeof, hvoid, hdelete⟩ := h
  rw [ofWord, if_neg hthis, if_neg htrue, if_neg hfalse, if_neg hnull, wordOp?, if_neg htypeof,
    if_neg hvoid, if_neg hdelete]
  exact ⟨rfl, rfl⟩

/-- An expression in parentheses is read. -/
theorem ReadsTerm.paren {e : Term} (h : ReadsTerm value e) : ReadsAccess value (.paren e) := by
  refine readsAccess_of_root fun rest _ => ⟨rfl, .of_succ ?_⟩
  filter_upwards [h (.mark ')' :: rest) (.mark (by decide) rest)] with n hn
  rw [glyphs, List.append_assoc, List.cons_append, List.singleton_append, readRoot, hn]
  rfl

/-! ### Accesses and calls -/

/-- A member behind a point is read behind its object. -/
theorem ReadsAccess.member {o : Term} (h : ReadsAccess value o) (isHidden : Bool) {t : String}
    (ht : IsWord t) : ReadsAccess value (.member o isHidden t) := by
  intro rest r hrest haccesses
  have hspan := span_append ht.isIdentifierPart hrest.word
  obtain ⟨c, cs, hc, hstart, -⟩ := ht
  rw [glyphs, List.append_assoc]
  cases isHidden with
  | true =>
    rw [if_pos rfl]
    refine h _ r ⟨stopsAt_mark (by decide) _, ?_⟩ (.of_succ ?_)
    · intro behind heq
      injection heq with _ heq
      rw [← heq]
      exact stopsAt_mark (by decide) _
    · filter_upwards [haccesses] with n hn
      rw [List.cons_append, List.cons_append, readAccesses, marks, hspan, String.ofList_toList]
      exact hn
  | false =>
    rw [if_neg Bool.false_ne_true]
    refine h _ r ⟨stopsAt_mark (by decide) _, ?_⟩ (.of_succ ?_)
    · intro behind heq
      injection heq with _ heq
      rw [← heq, marks, hc]
      exact stopsAt_mark (isDigit_of_start hstart) _
    · -- The name does not start with a hash sign.
      have hhash : c ≠ '#' := by
        rintro rfl
        exact absurd hstart (by decide)
      filter_upwards [haccesses] with n hn
      rw [List.cons_append, marks, hc, List.map_cons, List.cons_append, readAccesses]
      · rw [hc, List.map_cons, List.cons_append] at hspan
        rw [hspan, ← hc, String.ofList_toList]
        exact hn
      · intro behind heq
        injection heq with hmark _
        injection hmark with hmark
        exact hhash hmark

/-- A member in brackets is read behind its object. -/
theorem ReadsAccess.index {o k : Term} (h : ReadsAccess value o) (hk : ReadsTerm value k) :
    ReadsAccess value (.index o k) := by
  intro rest r hrest haccesses
  rw [glyphs, List.append_assoc, List.append_assoc, List.cons_append, List.singleton_append]
  refine h _ r ⟨stopsAt_mark (by decide) _, ?_⟩ (.of_succ ?_)
  · intro behind heq
    simp at heq
  · filter_upwards [hk (.mark ']' :: rest) (.mark (by decide) rest), haccesses] with n hkey hn
    rw [readAccesses, hkey]
    exact hn

/-- In front of further arguments and of the closing parenthesis a term ends. -/
theorem isEnded_furtherGlyphs (args : List Term) (rest : List Glyph) :
    IsEnded (furtherGlyphs args ++ .mark ')' :: rest) := by
  cases args with
  | nil => exact .mark (by decide) rest
  | cons a args => exact .mark (by decide) _

/-- Further arguments are read up to the closing parenthesis. -/
theorem settles_readFurther {args : List Term} (h : ∀ a ∈ args, ReadsTerm value a)
    (rest : List Glyph) :
    Settles (readFurther value · (furtherGlyphs args ++ .mark ')' :: rest))
      (some (spreadAll args, rest)) := by
  induction args with
  | nil => exact .of_succ (.of_forall fun _ => rfl)
  | cons a args ih =>
    obtain ⟨ha, hargs⟩ := List.forall_mem_cons.mp h
    refine .of_succ ?_
    filter_upwards [ha _ (isEnded_furtherGlyphs args rest), ih hargs] with n hfirst hfurther
    rw [furtherGlyphs, List.cons_append, List.cons_append, List.cons_append, List.cons_append,
      List.append_assoc, readFurther, hfirst]
    dsimp only
    rw [hfurther]
    rfl

/-- No term starts with a closing parenthesis. -/
theorem settles_readTerm_close (rest : List Glyph) :
    Settles (readTerm value · (.mark ')' :: rest)) none := by
  filter_upwards [eventually_ge_atTop 4] with n hn
  obtain ⟨k, rfl⟩ := Nat.exists_eq_add_of_le' hn
  rfl

/-- Arguments are read up to the closing parenthesis. -/
theorem settles_readArguments {args : List Term} (h : ∀ a ∈ args, ReadsTerm value a)
    (rest : List Glyph) :
    Settles (readArguments value · (argumentGlyphs args ++ .mark ')' :: rest))
      (some (spreadAll args, rest)) := by
  refine .of_succ ?_
  -- an argument that is read at all settles the first choice
  cases args with
  | nil =>
    filter_upwards [settles_readTerm_close rest] with n hclose
    rw [argumentGlyphs, List.nil_append, readArguments, hclose]
    rfl
  | cons a args =>
    obtain ⟨ha, hargs⟩ := List.forall_mem_cons.mp h
    filter_upwards [ha _ (isEnded_furtherGlyphs args rest), settles_readFurther hargs rest]
      with n hfirst hfurther
    rw [argumentGlyphs, List.append_assoc, readArguments, hfirst]
    dsimp only
    rw [hfurther]
    rfl

/-- A call is read behind its function. -/
theorem ReadsAccess.call {f : Term} (h : ReadsAccess value f) {args : List Term}
    (hargs : ∀ a ∈ args, ReadsTerm value a) : ReadsAccess value (.call f args) := by
  intro rest r hrest haccesses
  rw [glyphs, List.append_assoc, List.append_assoc, List.cons_append, List.singleton_append]
  refine h _ r ⟨stopsAt_mark (by decide) _, ?_⟩ (.of_succ ?_)
  · intro behind heq
    simp at heq
  · filter_upwards [settles_readArguments hargs rest, haccesses] with n harguments hn
    rw [readAccesses, harguments]
    exact hn

/-! ### Operators -/

/-- An operator in front of its operand is read. -/
theorem ReadsUnary.unary {e : Term} (h : ReadsUnary value e) (op : UnaryOp) :
    ReadsUnary value (.unary op e) := by
  intro rest hrest
  -- an operator that is a word keeps a blank between itself and its operand
  have hglyphs : (Term.unary op e).glyphs ++ rest
      = marks op.text
        ++ if op.isWord then .mark ' ' :: (e.glyphs ++ rest) else e.glyphs ++ rest := by
    rw [glyphs, List.append_assoc]
    split <;> rfl
  have hop := unaryAt?_text op (e.glyphs ++ rest)
  refine .of_succ ?_
  filter_upwards [h rest hrest] with n hn
  rw [hglyphs, readUnary, hop, spread]
  dsimp only
  rw [hn]
  rfl

/-- An increment or decrement in front of its operand is read as two signs. -/
theorem ReadsUnary.update {e : Term} (h : ReadsUnary value e) (op : UpdateOp) :
    ReadsUnary value (.update op true e) := by
  have htwice := (h.unary (sign op)).unary (sign op)
  intro rest hrest
  have hglyphs : (Term.update op true e).glyphs
      = (Term.unary (sign op) (.unary (sign op) e)).glyphs := by
    cases op <;> rfl
  rw [hglyphs]
  exact htwice rest hrest

/-- An increment or decrement behind its operand is read. -/
theorem ReadsAccess.update {e : Term} (h : ReadsAccess value e) (op : UpdateOp) :
    ReadsUnary value (.update op false e) := by
  intro rest hrest
  have hglyphs : (Term.update op false e).glyphs ++ rest = e.glyphs ++ (marks op.text ++ rest) := by
    rw [glyphs, if_neg Bool.false_ne_true, List.append_assoc]
  have hopen : IsOpen (marks op.text ++ rest) := by
    cases op with
    | increment => exact ⟨stopsAt_mark (by decide) _, fun behind heq => by cases heq⟩
    | decrement => exact ⟨stopsAt_mark (by decide) _, fun behind heq => by cases heq⟩
  rw [hglyphs]
  refine h _ _ hopen (.of_succ (.of_forall fun n => ?_))
  cases op <;> rfl

/-- An operator that takes a term as its left operand does not bind tighter than the term. -/
theorem precedence_le_tightness {op : BinaryOp} {t : Term} (h : op.precedence ≤ t.hold) :
    op.precedence ≤ t.tightness := by
  have hop := precedence_bounds op
  cases t with
  | binary op' l r => exact h.trans (floor_bounds op').1
  | conditional c y n => exact absurd (hop.1.trans_le h) (lt_irrefl 0)
  | unary | update => exact hop.2.le
  | _ => exact hop.2.le.trans (show operandTightness ≤ accessTightness by decide)

/-- The operators behind a right operand that do not belong to it do not cut it short. -/
theorem floor_le_hold {op : BinaryOp} {t : Term} (h : floor op < t.tightness) :
    floor op ≤ t.hold := by
  have hop : floor op ≤ accessTightness :=
    (floor_bounds op).1.trans ((precedence_bounds op).2.le.trans (by decide))
  cases t with
  | binary op' l r => exact Nat.le_of_lt_succ (lt_of_lt_of_le h (floor_bounds op').2)
  | conditional c y n => exact absurd h (Nat.not_lt_zero _)
  | _ => exact hop

/-- An operator with its operands is read, and what goes on behind it as well. -/
theorem ReadsOperations.binary {l r : Term} (hl : ReadsOperations value l)
    (hr : ReadsOperations value r) {op : BinaryOp} (hfits : (Term.binary op l r).Fits) :
    ReadsOperations value (.binary op l r) := by
  obtain ⟨hleft, hright⟩ := hfits
  intro limit rest result hlimit hrest hstops hmore
  change limit < op.precedence at hlimit
  change StopsOperators (floor op) rest at hstops
  have hglyphs : (Term.binary op l r).glyphs ++ rest
      = l.glyphs ++ .mark ' ' :: (marks op.text ++ .mark ' ' :: (r.glyphs ++ rest)) := by
    rw [glyphs]
    simp only [List.append_assoc, List.cons_append]
  have hop := operatorAt?_text op (r.glyphs ++ rest)
  -- The right operand ends where no operator follows that binds tighter than this one allows.
  have hoperand : Settles (readOperations value · (floor op) (r.glyphs ++ rest))
      (some (r.spread, rest)) := by
    refine hr _ rest _ hright hrest ?_ (settles_readMore hstops r.spread)
    exact fun op' behind h => (hstops op' behind h).trans (floor_le_hold hright)
  rw [hglyphs]
  refine hl limit _ result (hlimit.trans_le (precedence_le_tightness hleft)) (.mark (by decide) _)
    ?_ (.of_succ ?_)
  · -- The operator is one that takes all of the left operand.
    intro op' behind h
    rw [hop] at h
    obtain ⟨rfl, -⟩ := Prod.mk.inj (Option.some.inj h)
    exact hleft
  · filter_upwards [hoperand, hmore] with n hn hmore
    rw [readMore, hop]
    dsimp only
    rw [if_neg (not_le.mpr hlimit), hn]
    exact hmore

/-- A choice between two values is read. -/
theorem ReadsTerm.conditional {c y n : Term} (hc : ReadsOperations value c)
    (hy : ReadsTerm value y) (hn : ReadsTerm value n) (hfits : (Term.conditional c y n).Fits) :
    ReadsTerm value (.conditional c y n) := by
  intro rest hrest
  have hglyphs : (Term.conditional c y n).glyphs ++ rest
      = c.glyphs ++ .mark ' ' :: .mark '?' :: .mark ' ' ::
          (y.glyphs ++ .mark ' ' :: .mark ':' :: .mark ' ' :: (n.glyphs ++ rest)) := by
    rw [glyphs]
    simp only [List.append_assoc, List.cons_append]
  -- Neither the question mark nor the colon is an operator.
  have hquestion : ∀ limit behind,
      StopsOperators limit (.mark ' ' :: .mark '?' :: .mark ' ' :: behind) := by
    intro limit behind op behind' h
    rw [show operatorAt? _ = none from rfl] at h
    exact absurd h.symm (Option.some_ne_none _)
  have htest := hc 0 _ _ hfits (.mark (by decide) _) (hquestion _ _)
    (settles_readMore (hquestion 0 (y.glyphs ++ .mark ' ' :: .mark ':' :: .mark ' ' ::
      (n.glyphs ++ rest))) c.spread)
  have hyes := hy _ (isEnded_colon (n.glyphs ++ rest))
  have hno := hn rest hrest
  rw [hglyphs]
  refine .of_succ ?_
  filter_upwards [htest, hyes, hno] with k htest hyes hno
  rw [readTerm, htest]
  simp only [hyes, hno]
  rfl

/-- **A term is read wherever it binds tightly enough**, if its operands do so and its names and
numbers are proper ones. -/
theorem isRead (hvalue : ∀ v : Binary64, v.IsDouble → value v.positional = v) {t : Term}
    (hfits : t.Everywhere Fits) (hproper : t.Everywhere IsProper) : IsRead value t := by
  -- A term is read at the tightness that it binds with: as an access, as an operand, or between
  -- operators. What binds too loosely for its place is ruled out by `Fits`.
  induction t using Term.induction with
  | name t =>
    obtain ⟨hword, hnotMem⟩ := hproper.self
    obtain ⟨hname, hop⟩ := ofWord_of_notMem hnotMem
    exact .of_access rfl (readsAccess_of_word hword hop rfl hname.symm)
  | this => exact .of_access rfl (readsAccess_of_word isWord_this rfl rfl rfl)
  | string v => exact .of_access rfl (readsAccess_of_atom fun _ _ => ⟨rfl, rfl⟩)
  | number v =>
    have hdouble : v.IsDouble := hproper.self
    exact .of_access rfl (readsAccess_of_atom fun rest hrest =>
      ⟨unaryAt?_number hdouble rest, atomAt?_number hdouble (hvalue v hdouble) hrest⟩)
  | bool b =>
    refine .of_access rfl (readsAccess_of_word (isWord_bool b) ?_ rfl ?_)
    · cases b <;> rfl
    · cases b <;> rfl
  | null => exact .of_access rfl (readsAccess_of_word isWord_null rfl rfl rfl)
  | paren e ihe =>
    rw [everywhere_paren] at hfits hproper
    exact .of_access rfl (ihe hfits.2 hproper.2).term.paren
  | member o isHidden t iho =>
    rw [everywhere_member] at hfits hproper
    have ho := (iho hfits.2 hproper.2).access hfits.1
    exact .of_access rfl (ho.member isHidden hproper.1)
  | index o k iho ihk =>
    rw [everywhere_index] at hfits hproper
    have ho := (iho hfits.2.1 hproper.2.1).access hfits.1
    exact .of_access rfl (ho.index (ihk hfits.2.2 hproper.2.2).term)
  | call f args ihf ihargs =>
    rw [everywhere_call] at hfits hproper
    have hf := (ihf hfits.2.1 hproper.2.1).access hfits.1
    exact .of_access rfl
      (hf.call fun a ha => (ihargs a ha (hfits.2.2 a ha) (hproper.2.2 a ha)).term)
  | unary op e ihe =>
    rw [everywhere_unary] at hfits hproper
    exact .of_unary rfl (((ihe hfits.2 hproper.2).unary hfits.1).unary op)
  | update op inFront e ihe =>
    rw [everywhere_update] at hfits hproper
    have he := ihe hfits.2 hproper.2
    cases inFront with
    | true => exact .of_unary rfl ((he.unary hfits.1).update op)
    | false => exact .of_unary rfl ((he.access hfits.1).update op)
  | binary op l r ihl ihr =>
    rw [everywhere_binary] at hfits hproper
    have hl := ihl hfits.2.1 hproper.2.1
    have hr := ihr hfits.2.2 hproper.2.2
    have hop := precedence_bounds op
    have hltight : 0 < l.tightness := hop.1.trans_le (precedence_le_tightness hfits.1.1)
    have hrtight : 0 < r.tightness := (Nat.zero_le _).trans_lt hfits.1.2
    have hoperations := (hl.operations hltight).binary (hr.operations hrtight) hfits.1
    exact
      { access := fun h => absurd (h.trans hop.2.le) (by decide)
        unary := fun h => absurd h (not_le.mpr hop.2)
        operations := fun _ => hoperations
        term := hoperations.term hop.1 }
  | conditional c y n ihc ihy ihn =>
    rw [everywhere_conditional] at hfits hproper
    have hc := (ihc hfits.2.1 hproper.2.1).operations hfits.1
    have hy := (ihy hfits.2.2.1 hproper.2.2.1).term
    have hn := (ihn hfits.2.2.2 hproper.2.2.2).term
    exact
      { access := fun h => absurd h (show ¬ accessTightness ≤ 0 by decide)
        unary := fun h => absurd h (show ¬ operandTightness ≤ 0 by decide)
        operations := fun h => absurd h (lt_irrefl 0)
        term := .conditional hc hy hn hfits.1 }

end Reading

end JsxWidgets.Expression.Term
