import JsxWidgets.Proofs.Expression.Terms
import JsxWidgets.Syntax.Grammar.Operators

/-!
# Grades of expressions

What a rule of the grammar promises of the expression that it gives is a grade: a number that says
how tightly the expression binds at least, as an operand of others. All operands inside of it then
bind tightly enough too. Nothing is promised of expressions that are no terms, however much of them
is a term, and nothing of terms that mix `??` with the other logical operators: to mix them is a
fault, and whoever reports it passes over characters that form no token.

There is one lemma for each construct, which says what grade its parts have to have.
-/

namespace JsxWidgets.Expression.Term

open Syntax

/-- **No two of the logical operators are mixed** that may not be: `??` is no operand of the others,
nor they of it. -/
def IsUnmixed : Term → Prop
  | .binary op l r =>
    ((binary op l r).node.isLogical → l.node.form ≠ .binary .nullish) ∧
      (op = .nullish → ¬ l.node.isLogical ∧ ¬ r.node.isLogical)
  | _ => True

end JsxWidgets.Expression.Term

namespace JsxWidgets.Syntax

open Expression

/-- The forms that terms have. -/
def Form.isTerm : Form → Bool
  | .name _ | .this | .string _ | .number _ | .bool _ | .null | .paren | .member | .call | .unary _
  | .update .. | .binary _ | .conditional => true
  | _ => false

/-- A term has the form of one. -/
theorem isTerm_form_node (t : Term) : t.node.form.isTerm = true := by
  cases t <;> rfl

namespace Node

/-- **An expression is well graded**: if it is a term in which logical operators are not mixed, then
all operands in it bind tightly enough, and it binds at least as tightly as the number says. -/
def Grade (k : Nat) (e : Node) : Prop :=
  ∀ t : Term, e.outline = t.node → t.Everywhere Term.IsUnmixed →
    t.Everywhere Term.Fits ∧ k ≤ t.tightness

/-- What binds tightly binds less tightly all the more. -/
theorem Grade.mono {j k : Nat} {e : Node} (h : e.Grade k) (hjk : j ≤ k) : e.Grade j :=
  fun t ht hunmixed => (h t ht hunmixed).imp_right hjk.trans

/-- **An expression that is no term.** -/
def IsForeign (e : Node) : Prop := ∀ t : Term, e.outline ≠ t.node

/-- Nothing is asked of what is no term. -/
theorem IsForeign.grade {e : Node} (h : e.IsForeign) (k : Nat) : e.Grade k :=
  fun t ht => absurd ht (h t)

/-- Most expressions can be told from terms by their form. -/
theorem isForeign_of_form {e : Node} (h : e.form.isTerm = false) : e.IsForeign := by
  intro t ht
  have hform := isTerm_form_node t
  rw [← ht, form_outline, h] at hform
  exact Bool.false_ne_true hform

/-- What is no term has any grade. -/
theorem grade_of_form {e : Node} (h : e.form.isTerm = false) (k : Nat) : e.Grade k :=
  (isForeign_of_form h).grade k

/-- **What a node of the given form holds is well graded.** Nothing is said of other forms. -/
def HoldsGraded (form : Form) (n : Node) : Prop := n.form = form → ∀ e ∈ n.parts, e.Grade 0

/-- Nothing is asked of what holds expressions in another form. -/
theorem holdsGraded_of_form {form : Form} {n : Node} (h : n.form ≠ form) : n.HoldsGraded form :=
  fun heq => absurd heq h

/-- What holds a single graded expression holds a graded one. -/
theorem Grade.holdsGraded {form form' : Form} {place : Place} {e : Node} (h : e.Grade 0) :
    HoldsGraded form ⟨form', place, [e]⟩ :=
  fun _ => List.forall_mem_singleton.mpr h

/-- An argument, or a member in brackets, that is a term. -/
theorem HoldsGraded.fits {form : Form} {n : Node} {a : Term} (h : n.HoldsGraded form)
    (hform : form ≠ .markup) (heq : n.outline = ⟨form, 0, [a.node]⟩)
    (hunmixed : a.Everywhere Term.IsUnmixed) : a.Everywhere Term.Fits := by
  obtain ⟨form', place, parts⟩ := n
  have hsame : form' = form := (form_outline _).symm.trans (congrArg Node.form heq)
  subst hsame
  rw [outline_mk (Or.inl hform), outlines_eq_map] at heq
  obtain ⟨e, hparts, he⟩ := List.map_eq_singleton_iff.mp (congrArg Node.parts heq)
  have hgrade : e.Grade 0 := h rfl e (by rw [hparts]; exact List.mem_singleton_self e)
  exact (hgrade a he hunmixed).1

/-! ### Nodes whose outline is that of a term -/

section Inversion

variable {t : Term} {place : Place}

/-- A term in the form of parentheses is one, around a term. -/
theorem eq_paren_of_outline {e : Node} (h : outline ⟨.paren, place, [e]⟩ = t.node) :
    ∃ e', t = .paren e' ∧ e.outline = e'.node := by
  cases t with
  | paren e' =>
    simp only [outline, outlines, Term.node, mk.injEq, List.cons.injEq, and_true, true_and] at h
    exact ⟨e', rfl, h⟩
  | _ => simp [outline, outlines, Term.node, leaf] at h

/-- One in the form of an operator in front is one, with a term behind it. -/
theorem eq_unary_of_outline {op : UnaryOp} {e : Node}
    (h : outline ⟨.unary op, place, [e]⟩ = t.node) :
    ∃ e', t = .unary op e' ∧ e.outline = e'.node := by
  cases t with
  | unary op' e' =>
    simp only [outline, outlines, Term.node, mk.injEq, Form.unary.injEq, List.cons.injEq, and_true,
      true_and] at h
    obtain ⟨rfl, he⟩ := h
    exact ⟨e', rfl, he⟩
  | _ => simp [outline, outlines, Term.node, leaf] at h

/-- One in the form of a counting operator is one, at a term. -/
theorem eq_update_of_outline {op : UpdateOp} {inFront : Bool} {e : Node}
    (h : outline ⟨.update op inFront, place, [e]⟩ = t.node) :
    ∃ e', t = .update op inFront e' ∧ e.outline = e'.node := by
  cases t with
  | update op' inFront' e' =>
    simp only [outline, outlines, Term.node, mk.injEq, Form.update.injEq, List.cons.injEq, and_true,
      true_and] at h
    obtain ⟨⟨rfl, rfl⟩, he⟩ := h
    exact ⟨e', rfl, he⟩
  | _ => simp [outline, outlines, Term.node, leaf] at h

/-- One in the form of a binary operator is one, between terms. -/
theorem eq_binary_of_outline {op : BinaryOp} {l r : Node}
    (h : outline ⟨.binary op, place, [l, r]⟩ = t.node) :
    ∃ l' r', t = .binary op l' r' ∧ l.outline = l'.node ∧ r.outline = r'.node := by
  cases t with
  | binary op' l' r' =>
    simp only [outline, outlines, Term.node, mk.injEq, Form.binary.injEq, List.cons.injEq, and_true,
      true_and] at h
    obtain ⟨rfl, hl, hr⟩ := h
    exact ⟨l', r', rfl, hl, hr⟩
  | _ => simp [outline, outlines, Term.node, leaf] at h

/-- One in the form of a choice is one, of terms. -/
theorem eq_conditional_of_outline {c y n : Node}
    (h : outline ⟨.conditional, place, [c, y, n]⟩ = t.node) :
    ∃ c' y' n', t = .conditional c' y' n' ∧ c.outline = c'.node ∧ y.outline = y'.node ∧
      n.outline = n'.node := by
  cases t with
  | conditional c' y' n' =>
    simp only [outline, outlines, Term.node, mk.injEq, List.cons.injEq, and_true, true_and] at h
    obtain ⟨hc, hy, hn⟩ := h
    exact ⟨c', y', n', rfl, hc, hy, hn⟩
  | _ => simp [outline, outlines, Term.node, leaf] at h

/-- One in the form of an access is an access to a word, or to a key that is a term. -/
theorem eq_access_of_outline {o selector : Node}
    (h : outline ⟨.member, place, [o, selector]⟩ = t.node) :
    (∃ o' isHidden text, t = .member o' isHidden text ∧ o.outline = o'.node) ∨
      ∃ o' k, t = .index o' k ∧ o.outline = o'.node ∧
        selector.outline = ⟨.computed, 0, [k.node]⟩ := by
  cases t with
  | member o' isHidden text =>
    simp only [outline, outlines, Term.node, mk.injEq, List.cons.injEq, and_true, true_and] at h
    exact Or.inl ⟨o', isHidden, text, rfl, h.1⟩
  | index o' k =>
    simp only [outline, outlines, Term.node, mk.injEq, List.cons.injEq, and_true, true_and] at h
    exact Or.inr ⟨o', k, rfl, h.1, h.2⟩
  | _ => simp [outline, outlines, Term.node, leaf] at h

/-- Every argument of a call that is a term stands among its items. -/
theorem exists_item_of_outlines {items : List Node} {args : List Term}
    (h : outlines items = Term.items args) :
    ∀ a ∈ args, ∃ i ∈ items, i.outline = ⟨.item, 0, [a.node]⟩ := by
  -- the two lists have one length, so they are gone through together
  induction items generalizing args with
  | nil =>
    cases args with
    | nil => exact fun a ha => absurd ha List.not_mem_nil
    | cons a args => cases h
  | cons i items ih =>
    cases args with
    | nil => cases h
    | cons a args =>
      rw [outlines, Term.items] at h
      obtain ⟨hfirst, hrest⟩ := List.cons.inj h
      refine List.forall_mem_cons.mpr ⟨⟨i, List.mem_cons_self, hfirst⟩, fun b hb => ?_⟩
      obtain ⟨j, hj, heq⟩ := ih hrest b hb
      exact ⟨j, List.mem_cons_of_mem i hj, heq⟩

/-- One in the form of a call is one, and its arguments are terms. -/
theorem eq_call_of_outline {f types : Node} {items : List Node}
    (h : outline ⟨.call, place, [f, .list items, types]⟩ = t.node) :
    ∃ f' args, t = .call f' args ∧ f.outline = f'.node ∧
      ∀ a ∈ args, ∃ i ∈ items, i.outline = ⟨.item, 0, [a.node]⟩ := by
  cases t with
  | call f' args =>
    simp only [outline, outlines, Term.node, list, mk.injEq, List.cons.injEq, and_true,
      true_and] at h
    exact ⟨f', args, rfl, h.1, exists_item_of_outlines h.2.1⟩
  | _ => simp [outline, outlines, Term.node, leaf] at h

end Inversion

/-! ### Well graded nodes -/

section Grades

variable {place : Place}

/-- An atom is well graded. -/
theorem grade_leaf (form : Form) : (leaf form place).Grade Term.accessTightness := by
  intro t ht _
  rw [leaf, outline_mk (Or.inr (by decide)), outlines] at ht
  -- An atom has no operands.
  have hatom : ∀ a : Term, a.subterms = [a] → a.Fits → a.Everywhere Term.Fits := by
    intro a ha hfits
    rw [Term.Everywhere, ha]
    exact List.forall_mem_singleton.mpr hfits
  cases t with
  | name | this | string | number | bool | null => exact ⟨hatom _ rfl trivial, le_refl _⟩
  | _ => simp [Term.node] at ht

/-- **What stands in parentheses can be accessed.** -/
theorem Grade.paren {e : Node} (h : e.Grade 0) :
    Grade Term.accessTightness ⟨.paren, place, [e]⟩ := by
  intro t ht hunmixed
  obtain ⟨e', rfl, he⟩ := eq_paren_of_outline ht
  rw [Term.everywhere_paren] at hunmixed
  rw [Term.everywhere_paren]
  exact ⟨⟨trivial, (h e' he hunmixed.2).1⟩, le_refl _⟩

/-- An access can be accessed further. -/
theorem Grade.access {o selector : Node} (ho : o.Grade Term.accessTightness)
    (hselector : selector.HoldsGraded .computed) :
    Grade Term.accessTightness ⟨.member, place, [o, selector]⟩ := by
  intro t ht hunmixed
  rcases eq_access_of_outline ht with ⟨o', isHidden, text, rfl, heq⟩ | ⟨o', k, rfl, heq, hk⟩
  · rw [Term.everywhere_member] at hunmixed
    obtain ⟨hfits, htight⟩ := ho o' heq hunmixed.2
    rw [Term.everywhere_member]
    exact ⟨⟨htight, hfits⟩, le_refl _⟩
  · rw [Term.everywhere_index] at hunmixed
    obtain ⟨hfits, htight⟩ := ho o' heq hunmixed.2.1
    rw [Term.everywhere_index]
    exact ⟨⟨htight, hfits, hselector.fits (by decide) hk hunmixed.2.2⟩, le_refl _⟩

/-- So can a call. -/
theorem Grade.call {f types : Node} {items : List Node} (hf : f.Grade Term.accessTightness)
    (hitems : ∀ i ∈ items, i.HoldsGraded .item) :
    Grade Term.accessTightness ⟨.call, place, [f, .list items, types]⟩ := by
  intro t ht hunmixed
  obtain ⟨f', args, rfl, heq, hargs⟩ := eq_call_of_outline ht
  rw [Term.everywhere_call] at hunmixed
  obtain ⟨hfits, htight⟩ := hf f' heq hunmixed.2.1
  rw [Term.everywhere_call]
  refine ⟨⟨htight, hfits, fun a ha => ?_⟩, le_refl _⟩
  obtain ⟨i, hi, hitem⟩ := hargs a ha
  exact (hitems i hi).fits (by decide) hitem (hunmixed.2.2 a ha)

/-- An operator in front of an operand gives an operand. -/
theorem Grade.unary {e : Node} (h : e.Grade Term.operandTightness) (op : UnaryOp) :
    Grade Term.operandTightness ⟨.unary op, place, [e]⟩ := by
  intro t ht hunmixed
  obtain ⟨e', rfl, he⟩ := eq_unary_of_outline ht
  rw [Term.everywhere_unary] at hunmixed
  obtain ⟨hfits, htight⟩ := h e' he hunmixed.2
  rw [Term.everywhere_unary]
  exact ⟨⟨htight, hfits⟩, le_refl _⟩

/-- So does a counting operator in front of an operand. -/
theorem Grade.updateInFront {e : Node} (h : e.Grade Term.operandTightness) (op : UpdateOp) :
    Grade Term.operandTightness ⟨.update op true, place, [e]⟩ := by
  intro t ht hunmixed
  obtain ⟨e', rfl, he⟩ := eq_update_of_outline ht
  rw [Term.everywhere_update] at hunmixed
  obtain ⟨hfits, htight⟩ := h e' he hunmixed.2
  rw [Term.everywhere_update]
  exact ⟨⟨htight, hfits⟩, le_refl _⟩

/-- So does one behind an expression that can be accessed. -/
theorem Grade.updateBehind {e : Node} (h : e.Grade Term.accessTightness) (op : UpdateOp) :
    Grade Term.operandTightness ⟨.update op false, place, [e]⟩ := by
  intro t ht hunmixed
  obtain ⟨e', rfl, he⟩ := eq_update_of_outline ht
  rw [Term.everywhere_update] at hunmixed
  obtain ⟨hfits, htight⟩ := h e' he hunmixed.2
  rw [Term.everywhere_update]
  exact ⟨⟨htight, hfits⟩, le_refl _⟩

/-- A choice is an expression that binds like no operator; its condition has to bind more tightly.
-/
theorem Grade.conditional {c y n : Node} (hc : c.Grade 1) (hy : y.Grade 0) (hn : n.Grade 0) :
    Grade 0 ⟨.conditional, place, [c, y, n]⟩ := by
  intro t ht hunmixed
  obtain ⟨c', y', n', rfl, heqc, heqy, heqn⟩ := eq_conditional_of_outline ht
  rw [Term.everywhere_conditional] at hunmixed
  obtain ⟨hfits, htight⟩ := hc c' heqc hunmixed.2.1
  rw [Term.everywhere_conditional]
  exact ⟨⟨htight, hfits, (hy y' heqy hunmixed.2.2.1).1, (hn n' heqn hunmixed.2.2.2).1⟩, le_refl _⟩

end Grades

end Node

end JsxWidgets.Syntax
