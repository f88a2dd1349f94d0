import JsxWidgets.Proofs.Decimal.Positional
import JsxWidgets.Proofs.Expression.Glyphs
import JsxWidgets.Proofs.Expression.Outline
import JsxWidgets.Text.Identifier

/-!
# Expressions that are summarized in full

A `Term` is an expression made of names, literals, parentheses, accesses, calls, and operators, down
to any depth. Nothing of it is left out of its summary, as long as there is room for its levels
(`Term.isShown`).

The grammar gives operators operands that bind tightly enough (`Term.Fits`). It also gives names
that consist of letters and digits and are no words of the language, unless one is spelled with
escapes, and numbers that are doubles (`Term.IsProper`).
-/

namespace JsxWidgets.Expression

open Syntax Glyph

/-- An expression that is summarized in full. -/
inductive Term where
  /-- A reference to a variable. -/
  | name (text : String)
  /-- The current object. -/
  | this
  /-- A quoted text. -/
  | string (value : String)
  /-- A number. -/
  | number (value : Binary64)
  /-- A truth value. -/
  | bool (value : Bool)
  /-- The null value. -/
  | null
  /-- An expression in parentheses. -/
  | paren (inner : Term)
  /-- A member behind a point, and whether a hash sign stands in front of its name. -/
  | member (object : Term) (isHidden : Bool) (text : String)
  /-- A member in brackets. -/
  | index (object key : Term)
  /-- A call. -/
  | call (function : Term) (arguments : List Term)
  /-- An operator in front of its operand. -/
  | unary (op : UnaryOp) (operand : Term)
  /-- An increment or decrement. -/
  | update (op : UpdateOp) (inFront : Bool) (operand : Term)
  /-- An operator between its operands. -/
  | binary (op : BinaryOp) (left right : Term)
  /-- A choice between two values. -/
  | conditional (test yes no : Term)

namespace Term

/-- What holds of a term if it holds of its parts holds of every term. -/
theorem induction {P : Term → Prop} (name : ∀ t, P (.name t)) (this : P .this)
    (string : ∀ v, P (.string v)) (number : ∀ v, P (.number v)) (bool : ∀ b, P (.bool b))
    (null : P .null) (paren : ∀ e, P e → P (.paren e))
    (member : ∀ o isHidden t, P o → P (.member o isHidden t))
    (index : ∀ o k, P o → P k → P (.index o k))
    (call : ∀ f args, P f → (∀ a ∈ args, P a) → P (.call f args))
    (unary : ∀ op e, P e → P (.unary op e))
    (update : ∀ op inFront e, P e → P (.update op inFront e))
    (binary : ∀ op l r, P l → P r → P (.binary op l r))
    (conditional : ∀ c y n, P c → P y → P n → P (.conditional c y n)) (t : Term) : P t :=
  @Term.rec P (fun args => ∀ a ∈ args, P a) name this string number bool null paren member index
    call unary update binary conditional (fun _ h => nomatch h)
    (fun _ _ ha hrest => List.forall_mem_cons.mpr ⟨ha, hrest⟩) t

/-! ### Nodes, texts and levels -/

mutual

/-- The node of a term. It has no place. -/
def node : Term → Node
  | .name t => .leaf (.name t) 0
  | .this => .leaf .this 0
  | .string v => .leaf (.string v) 0
  | .number v => .leaf (.number v) 0
  | .bool b => .leaf (.bool b) 0
  | .null => .leaf .null 0
  | .paren e => ⟨.paren, 0, [e.node]⟩
  | .member o isHidden t =>
    ⟨.member, 0, [o.node, .leaf (if isHidden then .hidden t else .word t) 0]⟩
  | .index o k => ⟨.member, 0, [o.node, ⟨.computed, 0, [k.node]⟩]⟩
  | .call f args => ⟨.call, 0, [f.node, .list (items args), .list []]⟩
  | .unary op e => ⟨.unary op, 0, [e.node]⟩
  | .update op inFront e => ⟨.update op inFront, 0, [e.node]⟩
  | .binary op l r => ⟨.binary op, 0, [l.node, r.node]⟩
  | .conditional c y n => ⟨.conditional, 0, [c.node, y.node, n.node]⟩

/-- The nodes of arguments. -/
def items : List Term → List Node
  | [] => []
  | a :: rest => ⟨.item, 0, [a.node]⟩ :: items rest

end

mutual

/-- The text of a term, as glyphs. -/
def glyphs : Term → List Glyph
  | .name t => marks t
  | .this => marks "this"
  | .string v => [.quoted v]
  | .number v => marks v.positional
  | .bool b => marks (if b then "true" else "false")
  | .null => marks "null"
  | .paren e => .mark '(' :: e.glyphs ++ [.mark ')']
  | .member o isHidden t =>
    o.glyphs ++ .mark '.' :: (if isHidden then .mark '#' :: marks t else marks t)
  | .index o k => o.glyphs ++ .mark '[' :: k.glyphs ++ [.mark ']']
  | .call f args => f.glyphs ++ .mark '(' :: argumentGlyphs args ++ [.mark ')']
  | .unary op e => marks op.text ++ (if op.isWord then .mark ' ' :: e.glyphs else e.glyphs)
  | .update op inFront e => if inFront then marks op.text ++ e.glyphs else e.glyphs ++ marks op.text
  | .binary op l r => l.glyphs ++ .mark ' ' :: marks op.text ++ .mark ' ' :: r.glyphs
  | .conditional c y n =>
    c.glyphs ++ .mark ' ' :: .mark '?' :: .mark ' ' :: y.glyphs
      ++ .mark ' ' :: .mark ':' :: .mark ' ' :: n.glyphs

/-- The text of arguments. -/
def argumentGlyphs : List Term → List Glyph
  | [] => []
  | a :: rest => a.glyphs ++ furtherGlyphs rest

/-- The text of arguments behind another one. -/
def furtherGlyphs : List Term → List Glyph
  | [] => []
  | a :: rest => .mark ',' :: .mark ' ' :: a.glyphs ++ furtherGlyphs rest

end

mutual

/-- The levels of a term. -/
def levels : Term → Nat
  | .paren e | .unary _ e | .update _ _ e => e.levels + 1
  | .member o _ _ => o.levels + 1
  | .index o k => max o.levels k.levels + 1
  | .call f args => max f.levels (levelsOf args) + 1
  | .binary _ l r => max l.levels r.levels + 1
  | .conditional c y n => max c.levels (max y.levels n.levels) + 1
  | _ => 1

/-- The levels of several terms. -/
def levelsOf : List Term → Nat
  | [] => 0
  | a :: rest => max a.levels (levelsOf rest)

end

/-- Every term has a level. -/
theorem levels_pos (t : Term) : 0 < t.levels := by
  cases t <;> exact Nat.succ_pos _

/-- An argument has no more levels than all arguments together. -/
theorem levels_le_levelsOf {a : Term} {args : List Term} (h : a ∈ args) :
    a.levels ≤ levelsOf args := by
  induction args with
  | nil => cases h
  | cons b rest ih =>
    rcases List.mem_cons.mp h with rfl | h
    · exact Nat.le_max_left _ _
    · exact (ih h).trans (Nat.le_max_right _ _)

/-- What is called is neither the constructor of a parent class nor the import of a module. -/
theorem summaryWithin_call_node (room : Nat) (f list types : Node) (t : Term) (h : f = t.node) :
    summaryWithin (room + 1) ⟨.call, 0, [f, list, types]⟩ =
      summaryWithin room f ++ "(" ++ ", ".intercalate (itemSummaries room list.parts) ++ ")" := by
  subst h
  rw [summaryWithin_call]
  cases t <;> rfl

/-- The text of arguments behind another one. -/
theorem intercalate_itemSummaries_cons {room : Nat} (s : String) {args : List Term}
    (h : ∀ a ∈ args, summaryWithin room a.node = written a.glyphs) :
    ", ".intercalate (s :: itemSummaries room (items args))
      = s ++ written (furtherGlyphs args) := by
  induction args generalizing s with
  | nil =>
    rw [items, itemSummaries, String.intercalate_singleton]
    exact String.append_empty.symm
  | cons a rest ih =>
    have ha := h a List.mem_cons_self
    have hrest := ih (written a.glyphs) fun b hb => h b (List.mem_cons_of_mem a hb)
    rw [items, itemSummaries, String.intercalate_cons_cons, ha, hrest, furtherGlyphs]
    simp only [List.cons_append, written_mark, written_append, String.append_assoc]
    rfl

/-- The arguments of a call are written with commas between them. -/
theorem intercalate_itemSummaries {room : Nat} {args : List Term}
    (h : ∀ a ∈ args, summaryWithin room a.node = written a.glyphs) :
    ", ".intercalate (itemSummaries room (items args)) = written (argumentGlyphs args) := by
  cases args with
  | nil => rfl
  | cons a rest =>
    have ha := h a List.mem_cons_self
    rw [items, itemSummaries, argumentGlyphs, written_append, ha]
    exact intercalate_itemSummaries_cons _ fun b hb => h b (List.mem_cons_of_mem a hb)

/-- With room for all levels, the summary of a term is its text. -/
def IsShown (t : Term) : Prop :=
  ∀ room, t.levels ≤ room → summaryWithin room t.node = written t.glyphs

/-- A term is shown in full if it is with every room that suffices for its levels, of which there is
at least one. -/
theorem IsShown.of_succ {t : Term}
    (h : ∀ room, t.levels ≤ room + 1 → summaryWithin (room + 1) t.node = written t.glyphs) :
    t.IsShown := by
  intro room hroom
  cases room with
  | zero => exact absurd (hroom.trans_lt t.levels_pos) (lt_irrefl _)
  | succ room => exact h room hroom

/-- **The text of a term is its summary** if there is room for its levels. -/
theorem isShown (t : Term) : t.IsShown := by
  -- a term needs one level of room more than the deepest of its parts
  induction t using Term.induction with
  | name t => exact .of_succ fun _ _ => (written_marks t).symm
  | this => exact .of_succ fun _ _ => (written_marks "this").symm
  | string v => exact .of_succ fun _ _ => (written_quoted v).symm
  | number v => exact .of_succ fun _ _ => (written_marks v.positional).symm
  | bool b => exact .of_succ fun _ _ => (written_marks (if b then "true" else "false")).symm
  | null => exact .of_succ fun _ _ => (written_marks "null").symm
  | paren e ihe =>
    refine .of_succ fun room h => ?_
    have he := ihe room (Nat.le_of_succ_le_succ h)
    rw [glyphs, List.cons_append, written_mark, written_append, ← he]
    exact String.append_assoc
  | member o isHidden t iho =>
    refine .of_succ fun room h => ?_
    have ho := iho room (Nat.le_of_succ_le_succ h)
    cases isHidden with
    | true =>
      change summaryWithin room o.node ++ ".#" ++ t = _
      simp only [glyphs, if_true, written_append, written_mark, written_marks, ho,
        String.append_assoc]
      rfl
    | false =>
      change summaryWithin room o.node ++ "." ++ t = _
      simp only [glyphs, Bool.false_eq_true, if_false, written_append, written_mark, written_marks,
        ho, String.append_assoc]
      rfl
  | index o k iho ihk =>
    refine .of_succ fun room h => ?_
    have hmax := Nat.max_le.mp (Nat.le_of_succ_le_succ h)
    have ho := iho room hmax.1
    have hk := ihk room hmax.2
    change summaryWithin room o.node ++ "[" ++ summaryWithin room k.node ++ "]" = _
    simp only [glyphs, written_append, written_mark, ho, hk, String.append_assoc]
    rfl
  | call f args ihf ihargs =>
    refine .of_succ fun room h => ?_
    have hmax := Nat.max_le.mp (Nat.le_of_succ_le_succ h)
    have hf := ihf room hmax.1
    have hargs := intercalate_itemSummaries fun a ha =>
      ihargs a ha room ((levels_le_levelsOf ha).trans hmax.2)
    rw [node, summaryWithin_call_node room f.node _ _ f rfl, hf, Node.list, hargs]
    simp only [glyphs, written_append, written_mark, String.append_assoc]
    rfl
  | unary op e ihe =>
    refine .of_succ fun room h => ?_
    have he := ihe room (Nat.le_of_succ_le_succ h)
    change op.text ++ (if op.isWord then " " else "") ++ summaryWithin room e.node = _
    cases hword : op.isWord with
    | true =>
      simp only [glyphs, hword, if_true, written_append, written_mark, written_marks, he,
        String.append_assoc]
      rfl
    | false =>
      simp only [glyphs, hword, Bool.false_eq_true, if_false, written_append, written_marks, he,
        String.append_empty]
  | update op inFront e ihe =>
    refine .of_succ fun room h => ?_
    have he := ihe room (Nat.le_of_succ_le_succ h)
    cases inFront with
    | true =>
      change op.text ++ summaryWithin room e.node = _
      rw [glyphs, if_pos rfl, written_append, written_marks, he]
    | false =>
      change summaryWithin room e.node ++ op.text = _
      rw [glyphs, if_neg Bool.false_ne_true, written_append, written_marks, he]
  | binary op l r ihl ihr =>
    refine .of_succ fun room h => ?_
    have hmax := Nat.max_le.mp (Nat.le_of_succ_le_succ h)
    have hl := ihl room hmax.1
    have hr := ihr room hmax.2
    change summaryWithin room l.node ++ " " ++ op.text ++ " " ++ summaryWithin room r.node = _
    simp only [glyphs, written_append, written_mark, written_marks, hl, hr,
      String.append_assoc]
    rfl
  | conditional c y n ihc ihy ihn =>
    refine .of_succ fun room h => ?_
    have hmax := Nat.max_le.mp (Nat.le_of_succ_le_succ h)
    have hmax' := Nat.max_le.mp hmax.2
    have hc := ihc room hmax.1
    have hy := ihy room hmax'.1
    have hn := ihn room hmax'.2
    change summaryWithin room c.node ++ " ? " ++ summaryWithin room y.node ++ " : "
      ++ summaryWithin room n.node = _
    simp only [glyphs, written_append, written_mark, hc, hy, hn,
      String.append_assoc]
    rfl

/-! ### Parts -/

mutual

/-- A term and all its parts. -/
def subterms : Term → List Term
  | .paren e => .paren e :: e.subterms
  | .member o isHidden t => .member o isHidden t :: o.subterms
  | .index o k => .index o k :: (o.subterms ++ k.subterms)
  | .call f args => .call f args :: (f.subterms ++ subtermsOf args)
  | .unary op e => .unary op e :: e.subterms
  | .update op inFront e => .update op inFront e :: e.subterms
  | .binary op l r => .binary op l r :: (l.subterms ++ r.subterms)
  | .conditional c y n => .conditional c y n :: (c.subterms ++ (y.subterms ++ n.subterms))
  | t => [t]

/-- Several terms and all their parts. -/
def subtermsOf : List Term → List Term
  | [] => []
  | a :: rest => a.subterms ++ subtermsOf rest

end

/-- The terms inside arguments are those inside each of them. -/
theorem subtermsOf_eq_flatMap (args : List Term) : subtermsOf args = args.flatMap subterms := by
  induction args with
  | nil => rfl
  | cons a rest ih => rw [subtermsOf, List.flatMap_cons, ih]

/-- A term is inside itself. -/
theorem self_mem_subterms (t : Term) : t ∈ t.subterms := by
  cases t <;> exact List.mem_cons_self

/-- A condition on a term and on all its parts. -/
def Everywhere (P : Term → Prop) (t : Term) : Prop := ∀ s ∈ t.subterms, P s

section Everywhere

variable {P : Term → Prop}

/-- What holds everywhere in a term holds of the term. -/
theorem Everywhere.self {t : Term} (h : t.Everywhere P) : P t := h t t.self_mem_subterms

/-- It holds everywhere in parentheses if it does inside them as well. -/
@[simp] theorem everywhere_paren {e : Term} :
    (paren e).Everywhere P ↔ P (.paren e) ∧ e.Everywhere P := List.forall_mem_cons

/-- In a member it holds of the object's parts. -/
@[simp] theorem everywhere_member {o : Term} {isHidden : Bool} {t : String} :
    (member o isHidden t).Everywhere P ↔ P (.member o isHidden t) ∧ o.Everywhere P :=
  List.forall_mem_cons

/-- In an access by a key it holds of the object's and the key's parts. -/
@[simp] theorem everywhere_index {o k : Term} :
    (index o k).Everywhere P ↔ P (.index o k) ∧ o.Everywhere P ∧ k.Everywhere P :=
  List.forall_mem_cons.trans (and_congr_right fun _ => List.forall_mem_append)

/-- In a call it holds of the parts of what is called and of all arguments. -/
@[simp] theorem everywhere_call {f : Term} {args : List Term} :
    (call f args).Everywhere P ↔
      P (.call f args) ∧ f.Everywhere P ∧ ∀ a ∈ args, a.Everywhere P := by
  refine List.forall_mem_cons.trans (and_congr_right fun _ => ?_)
  rw [List.forall_mem_append, subtermsOf_eq_flatMap]
  refine and_congr_right fun _ => ?_
  simp only [List.mem_flatMap, forall_exists_index, and_imp, Everywhere]
  exact ⟨fun h a ha s hs => h s a ha hs, fun h s a ha hs => h a ha s hs⟩

/-- Behind an operator it holds of the operand's parts. -/
@[simp] theorem everywhere_unary {op : UnaryOp} {e : Term} :
    (unary op e).Everywhere P ↔ P (.unary op e) ∧ e.Everywhere P := List.forall_mem_cons

/-- So it does with an operator that counts. -/
@[simp] theorem everywhere_update {op : UpdateOp} {inFront : Bool} {e : Term} :
    (update op inFront e).Everywhere P ↔ P (.update op inFront e) ∧ e.Everywhere P :=
  List.forall_mem_cons

/-- In a binary expression it holds of the parts of both sides. -/
@[simp] theorem everywhere_binary {op : BinaryOp} {l r : Term} :
    (binary op l r).Everywhere P ↔ P (.binary op l r) ∧ l.Everywhere P ∧ r.Everywhere P :=
  List.forall_mem_cons.trans (and_congr_right fun _ => List.forall_mem_append)

/-- In a choice it holds of the parts of the condition and of both branches. -/
@[simp] theorem everywhere_conditional {c y n : Term} :
    (conditional c y n).Everywhere P ↔
      P (.conditional c y n) ∧ c.Everywhere P ∧ y.Everywhere P ∧ n.Everywhere P :=
  List.forall_mem_cons.trans (and_congr_right fun _ =>
    List.forall_mem_append.trans (and_congr_right fun _ => List.forall_mem_append))

end Everywhere

/-! ### What the grammar gives -/

/-- How tightly a term binds that is an operator in front of its operand or behind it. -/
def operandTightness : Nat := 12

/-- How tightly a term binds that is no operator at all. -/
def accessTightness : Nat := 13

/-- Every binary operator binds, but less tightly than an operand does. -/
theorem precedence_bounds (op : BinaryOp) :
    0 < op.precedence ∧ op.precedence < operandTightness := by
  cases op <;> decide

/-- How tightly a term binds as an operand. -/
def tightness : Term → Nat
  | .conditional .. => 0
  | .binary op _ _ => op.precedence
  | .unary .. | .update .. => operandTightness
  | _ => accessTightness

/-- The operators behind the right operand of an operator end it unless they bind tighter than
this. Only powers are gathered from the right. -/
def floor (op : BinaryOp) : Nat := if op = .power then op.precedence - 1 else op.precedence

/-- What stands on the right of an operator binds as tightly as the operator, or one step more. -/
theorem floor_bounds (op : BinaryOp) : floor op ≤ op.precedence ∧ op.precedence ≤ floor op + 1 := by
  cases op <;> decide

/-- An operator behind a term takes all of it as its left operand if it binds no tighter than
this. -/
def hold : Term → Nat
  | .conditional .. => 0
  | .binary op _ _ => floor op
  | _ => accessTightness

/-- **The operands of a term bind tightly enough.** -/
def Fits : Term → Prop
  | .member o _ _ | .index o _ | .call o _ | .update _ false o => accessTightness ≤ o.tightness
  | .unary _ e | .update _ true e => operandTightness ≤ e.tightness
  | .binary op l r => op.precedence ≤ l.hold ∧ floor op < r.tightness
  | .conditional c _ _ => 0 < c.tightness
  | _ => True

/-- A word of letters, digits and the like, of which the first is no digit. -/
def IsWord (s : String) : Prop :=
  ∃ c cs, s.toList = c :: cs ∧ Text.isIdentifierStart c = true ∧
    cs.all Text.isIdentifierPart = true

/-- The words that do not stand for a variable where an operand is expected. -/
def operandWords : List String :=
  ["this", "true", "false", "null", "typeof", "void", "delete"]

/-- **The names and the numbers in a term are proper ones.** -/
def IsProper : Term → Prop
  | .name t => IsWord t ∧ t ∉ operandWords
  | .member _ _ t => IsWord t
  | .number v => v.IsDouble
  | _ => True

/-! ### Characters outside of quotes -/

/-- Quotes and backslashes are no characters of words. -/
theorem plain_of_isIdentifierPart {c : Char} (h : Text.isIdentifierPart c = true) :
    (Glyph.mark c).IsPlain := by
  constructor
  · rintro rfl
    exact absurd h (by decide)
  · rintro rfl
    exact absurd h (by decide)

/-- What starts a word can go on in one. -/
theorem isIdentifierPart_of_start {c : Char} (h : Text.isIdentifierStart c = true) :
    Text.isIdentifierPart c = true := by
  rw [Text.isIdentifierStart] at h
  rw [Text.isIdentifierPart]
  split at h
  · next hascii =>
    rw [if_pos hascii, Text.isAsciiAlphanumeric]
    simp only [Bool.or_eq_true] at h ⊢
    exact h.imp_left (Or.imp_left Or.inl)
  · next hascii =>
    rw [if_neg hascii, h, Bool.true_or]

/-- So can a digit. -/
theorem isIdentifierPart_of_isDigit {c : Char} (h : c.isDigit = true) :
    Text.isIdentifierPart c = true := by
  rw [Char.isDigit, Bool.and_eq_true, decide_eq_true_eq, decide_eq_true_eq] at h
  have hdigit : Text.isAsciiDigit c = true := by
    rw [Text.isAsciiDigit, Bool.and_eq_true, decide_eq_true_eq, decide_eq_true_eq]
    exact h
  have hascii : c.toNat < 0x80 := lt_of_le_of_lt (UInt32.le_iff_toNat_le.mp h.2) (by decide)
  rw [Text.isIdentifierPart, if_pos hascii, Text.isAsciiAlphanumeric, hdigit, Bool.or_true]
  rfl

/-- A word consists of such characters. -/
theorem IsWord.isIdentifierPart {s : String} (h : IsWord s) :
    ∀ c ∈ s.toList, Text.isIdentifierPart c = true := by
  obtain ⟨c, cs, heq, hstart, hrest⟩ := h
  rw [heq]
  exact List.forall_mem_cons.mpr ⟨isIdentifierPart_of_start hstart, List.all_eq_true.mp hrest⟩

/-- What is to hold of the glyphs of a text of marks is to hold of its characters. -/
theorem forall_marks {P : Glyph → Prop} {s : String} :
    (∀ g ∈ marks s, P g) ↔ ∀ c ∈ s.toList, P (.mark c) := by
  rw [marks, List.forall_mem_map]

/-- The glyphs of a word are plain. -/
theorem IsWord.plain {s : String} (h : IsWord s) : ∀ g ∈ marks s, g.IsPlain :=
  forall_marks.mpr fun c hc => plain_of_isIdentifierPart (h.isIdentifierPart c hc)

/-- So are digits. -/
theorem plain_of_isDigit {c : Char} (h : c.isDigit = true) : (Glyph.mark c).IsPlain := by
  constructor
  · rintro rfl
    exact absurd h (by decide)
  · rintro rfl
    exact absurd h (by decide)

/-- The text of a number is made of digits and a point. -/
theorem plain_positional {v : Binary64} (h : v.IsDouble) :
    ∀ g ∈ marks v.positional, g.IsPlain := by
  cases v with
  | infinite => exact h.elim
  | finite m e =>
    obtain ⟨whole, places, hdigits, htext, -⟩ := Binary64.exists_positional_eq m e
    rw [forall_marks, htext, Binary64.numeral]
    have hwhole : ∀ c ∈ whole, (Glyph.mark c).IsPlain := fun c hc =>
      plain_of_isDigit (hdigits.digits c (List.mem_append_left _ hc))
    have hplaces : ∀ c ∈ places, (Glyph.mark c).IsPlain := fun c hc =>
      plain_of_isDigit (hdigits.digits c (List.mem_append_right _ hc))
    refine List.forall_mem_append.mpr ⟨hwhole, ?_⟩
    -- the point is there only if there are places behind it
    split
    · exact fun c hc => absurd hc List.not_mem_nil
    · exact List.forall_mem_cons.mpr ⟨⟨by decide, by decide⟩, hplaces⟩

/-- So are the arguments behind the first one if each of them is. -/
theorem plain_furtherGlyphs {args : List Term} (h : ∀ a ∈ args, ∀ g ∈ a.glyphs, g.IsPlain) :
    ∀ g ∈ furtherGlyphs args, g.IsPlain := by
  induction args with
  | nil => exact fun g hg => absurd hg List.not_mem_nil
  | cons a rest ih =>
    obtain ⟨ha, hrest⟩ := List.forall_mem_cons.mp h
    simp only [furtherGlyphs, List.forall_mem_cons, List.cons_append, List.forall_mem_append]
    exact ⟨by decide, by decide, ha, ih hrest⟩

/-- So are all arguments. -/
theorem plain_argumentGlyphs {args : List Term} (h : ∀ a ∈ args, ∀ g ∈ a.glyphs, g.IsPlain) :
    ∀ g ∈ argumentGlyphs args, g.IsPlain := by
  cases args with
  | nil => exact fun g hg => absurd hg List.not_mem_nil
  | cons a rest =>
    obtain ⟨ha, hrest⟩ := List.forall_mem_cons.mp h
    exact List.forall_mem_append.mpr ⟨ha, plain_furtherGlyphs hrest⟩

/-- **Outside of quotes no quote and no backslash stands** in the text of a term. -/
theorem plain_glyphs {t : Term} (h : t.Everywhere IsProper) : ∀ g ∈ t.glyphs, g.IsPlain := by
  induction t using Term.induction with
  | name t => exact h.self.1.plain
  | this => exact (by decide : ∀ g ∈ marks "this", g.IsPlain)
  | string v => exact (by simp [glyphs, IsPlain])
  | number v => exact plain_positional h.self
  | bool b => cases b <;> decide
  | null => exact (by decide : ∀ g ∈ marks "null", g.IsPlain)
  | paren e ihe =>
    rw [everywhere_paren] at h
    simp only [glyphs, List.forall_mem_cons, List.cons_append, List.forall_mem_append]
    exact ⟨by decide, ihe h.2, by decide⟩
  | member o isHidden t iho =>
    rw [everywhere_member] at h
    have ht : IsWord t := h.1
    refine List.forall_mem_append.mpr ⟨iho h.2, List.forall_mem_cons.mpr ⟨by decide, ?_⟩⟩
    split
    · exact List.forall_mem_cons.mpr ⟨by decide, ht.plain⟩
    · exact ht.plain
  | index o k iho ihk =>
    rw [everywhere_index] at h
    simp only [glyphs, List.forall_mem_cons, List.forall_mem_append]
    exact ⟨⟨iho h.2.1, by decide, ihk h.2.2⟩, by decide⟩
  | call f args ihf ihargs =>
    rw [everywhere_call] at h
    -- the arguments are plain one by one, and so is the comma between them
    have hargs := plain_argumentGlyphs fun a ha => ihargs a ha (h.2.2 a ha)
    simp only [glyphs, List.forall_mem_cons, List.forall_mem_append]
    exact ⟨⟨ihf h.2.1, by decide, hargs⟩, by decide⟩
  | unary op e ihe =>
    rw [everywhere_unary] at h
    have hop : ∀ g ∈ marks op.text, g.IsPlain := by cases op <;> decide
    refine List.forall_mem_append.mpr ⟨hop, ?_⟩
    split
    · exact List.forall_mem_cons.mpr ⟨by decide, ihe h.2⟩
    · exact ihe h.2
  | update op inFront e ihe =>
    rw [everywhere_update] at h
    have hop : ∀ g ∈ marks op.text, g.IsPlain := by cases op <;> decide
    rw [glyphs]
    split
    · exact List.forall_mem_append.mpr ⟨hop, ihe h.2⟩
    · exact List.forall_mem_append.mpr ⟨ihe h.2, hop⟩
  | binary op l r ihl ihr =>
    rw [everywhere_binary] at h
    have hop : ∀ g ∈ marks op.text, g.IsPlain := by cases op <;> decide
    simp only [glyphs, List.forall_mem_cons, List.forall_mem_append]
    exact ⟨⟨ihl h.2.1, by decide, hop⟩, by decide, ihr h.2.2⟩
  | conditional c y n ihc ihy ihn =>
    rw [everywhere_conditional] at h
    simp only [glyphs, List.forall_mem_cons, List.forall_mem_append]
    exact ⟨⟨ihc h.2.1, by decide, by decide, by decide, ihy h.2.2.1⟩,
      by decide, by decide, by decide, ihn h.2.2.2⟩

end Term

end JsxWidgets.Expression
