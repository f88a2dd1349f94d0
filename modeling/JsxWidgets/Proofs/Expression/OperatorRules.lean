import JsxWidgets.Proofs.Expression.Grades
import JsxWidgets.Proofs.Syntax.Readings

/-!
# Rules for operators

Operators are gathered from the left, as long as they bind tighter than a number that the caller
gives. The left operand of the next operator is then all that has been gathered so far, and it binds
tightly enough because the operator did not belong to its right end. So what is kept from one round
to the next (`Gathered`) speaks of the operator that stands next.

The rules of the grammar refer to one another in circles. The lemmas about them therefore assume of
the grammar that a rule is handed what they say together of the next one (`Grammar.IsGraded`).
-/

namespace JsxWidgets.Syntax

open Expression Reading

/-- The operator between operands that stands next. -/
def ReadState.operator? (s : ReadState) : Option BinaryOp :=
  s.token.kind.binaryOp? s.scope.allowsIn

/-- **Operands with operators between them**, gathered from the first one on: all operators bind
tighter than the given number, and the one that stands next no tighter than the limit. -/
structure Gathered (first : Node) (floor : Nat) (limit : Term → Nat) (e : Node) (s : ReadState) :
    Prop where
  /-- The operands bind tightly enough. -/
  grade : e.Grade (floor + 1)
  /-- The operator that stands next does not belong inside. -/
  next : ∀ t : Term, e.outline = t.node → t.Everywhere Term.IsUnmixed →
    ∀ op, s.operator? = some op → op.precedence ≤ limit t
  /-- If the first operand is no term, then they are none together. -/
  foreign : first.IsForeign → e.IsForeign

/-- **A whole expression without a comma**: no choice between two values goes on behind it. -/
def IsWhole (e : Node) (s : ReadState) : Prop :=
  e.Grade 0 ∧ (e.IsForeign ∨ s.token.kind ≠ .punct "?")

theorem Node.IsForeign.isWhole {e : Node} (h : e.IsForeign) (s : ReadState) : IsWhole e s :=
  ⟨h.grade 0, Or.inl h⟩

/-- **A grammar gives well graded expressions.** -/
structure Grammar.IsGraded (g : Grammar) : Prop where
  /-- Expressions separated by commas. -/
  expression : ∀ s, Yields g.expression s fun e _ => e.Grade 0
  /-- An expression without a comma. -/
  assignment : ∀ s, Yields g.assignment s IsWhole
  /-- Operators behind an operand. -/
  operators : ∀ first floor s, first.Grade Term.operandTightness → floor < Term.operandTightness →
    Yields (g.operators first floor) s (Gathered first floor fun _ => floor)
  /-- An operand. -/
  unary : ∀ s, Yields g.unary s fun e _ => e.Grade Term.operandTightness
  /-- An expression that can be called or accessed. -/
  access : ∀ s, Yields g.access s fun e _ => e.Grade Term.accessTightness
  /-- A construction. -/
  construction : ∀ s, Yields g.construction s fun e _ => e.IsForeign

/-! ### Gathering operands -/

/-- A node that is no term can stand for operands that have been gathered. -/
theorem Gathered.of_isForeign {first e : Node} {floor : Nat} {limit : Term → Nat} {s : ReadState}
    (h : e.IsForeign) : Gathered first floor limit e s :=
  ⟨h.grade _, fun t ht => absurd ht (h t), fun _ => h⟩

/-- An operand is gathered from itself. -/
theorem Node.Grade.gathered {first : Node} {floor : Nat} {s : ReadState}
    (h : first.Grade Term.operandTightness) (hfloor : floor < Term.operandTightness) :
    Gathered first floor Term.hold first s where
  grade := h.mono hfloor
  next := by
    intro t ht hunmixed op _
    have htight := (h t ht hunmixed).2
    have hop := (Term.precedence_bounds op).2
    -- A term that binds like an operand is neither a choice nor an operator between operands.
    cases t with
    | conditional => exact absurd htight (show ¬ Term.operandTightness ≤ 0 by decide)
    | binary op' => exact absurd htight (Term.precedence_bounds op').2.not_ge
    | _ => exact hop.le.trans (show Term.operandTightness ≤ Term.accessTightness by decide)
  foreign := id

theorem isLogical_eq_of_outline {e e' : Node} (h : e.outline = e') :
    e.isLogical = e'.isLogical := by
  rw [Node.isLogical, Node.isLogical, ← h, Node.form_outline]

/-- The right operand of an operator, with the operators that belong to it. -/
theorem Gathered.binary {first left right first' : Node} {op : BinaryOp} {floor : Nat}
    {s s' s'' : ReadState} (hl : Gathered first floor Term.hold left s)
    (hop : s.operator? = some op) (hfloor : floor < op.precedence)
    (hr : Gathered first' (Term.floor op) (fun _ => Term.floor op) right s') (place : Place)
    (hs : (op = .nullish → ¬ left.isLogical ∧ ¬ right.isLogical) → s'' = s') :
    Gathered first floor Term.hold ⟨.binary op, place, [left, right]⟩ s'' where
  grade := by
    intro t ht hunmixed
    obtain ⟨l, r, rfl, heql, heqr⟩ := Node.eq_binary_of_outline ht
    rw [Term.everywhere_binary] at hunmixed
    obtain ⟨-, hunmixedl, hunmixedr⟩ := hunmixed
    have hfitsl := (hl.grade l heql hunmixedl).1
    obtain ⟨hfitsr, htight⟩ := hr.grade r heqr hunmixedr
    -- The operator stood next behind its left operand.
    have hhold := hl.next l heql hunmixedl op hop
    rw [Term.everywhere_binary]
    exact ⟨⟨⟨hhold, htight⟩, hfitsl, hfitsr⟩, hfloor⟩
  next := by
    intro t ht hunmixed
    obtain ⟨l, r, rfl, heql, heqr⟩ := Node.eq_binary_of_outline ht
    rw [Term.everywhere_binary] at hunmixed
    obtain ⟨⟨-, hnullish⟩, -, hunmixedr⟩ := hunmixed
    have hsame : s'' = s' := hs fun h => by
      rw [isLogical_eq_of_outline heql, isLogical_eq_of_outline heqr]
      exact hnullish h
    subst hsame
    exact hr.next r heqr hunmixedr
  foreign := by
    intro hfirst t ht
    obtain ⟨l, r, rfl, heql, -⟩ := Node.eq_binary_of_outline ht
    exact hl.foreign hfirst l heql

/-- A report of mixed operators changes nothing about terms without any. -/
theorem Gathered.of_unmixed {first e : Node} {floor : Nat} {limit limit' : Term → Nat}
    {s s' : ReadState} (h : Gathered first floor limit e s)
    (hs : ∀ t : Term, e.outline = t.node → t.Everywhere Term.IsUnmixed → s' = s)
    (hlimit : ∀ t : Term, ∀ op, s.operator? = some op → op.precedence ≤ limit t →
      op.precedence ≤ limit' t) :
    Gathered first floor limit' e s' where
  grade := h.grade
  next := by
    intro t ht hunmixed op hop
    have hsame := hs t ht hunmixed
    subst hsame
    exact hlimit t op hop (h.next t ht hunmixed op hop)
  foreign := h.foreign

section Rules

variable {g : Rules} (hg : (g ()).IsGraded)

/-- The left operand of a logical operator in a term. -/
theorem eq_binary_of_isLogical {e left : Node} {rest : List Node} {t : Term}
    (ht : e.outline = t.node) (hlogical : e.isLogical) (hparts : e.parts = left :: rest) :
    ∃ op l r, t = .binary op l r ∧ left.outline = l.node := by
  have hform : e.form = .binary .logicalAnd ∨ e.form = .binary .logicalOr := by
    simpa [Node.isLogical] using hlogical
  -- an outline keeps the form, so the term has to be a binary one
  have hnode : t.node.form = e.form := by rw [← ht, Node.form_outline]
  obtain ⟨form, place, parts⟩ := e
  dsimp only at hparts hform hnode
  subst hparts
  have hmarkup : form ≠ .markup := by rcases hform with rfl | rfl <;> decide
  rw [Node.outline_mk (Or.inl hmarkup)] at ht
  cases t with
  | binary op l r =>
    simp only [Node.outlines, Term.node, Node.mk.injEq, List.cons.injEq] at ht
    exact ⟨op, l, r, rfl, ht.2.2.1⟩
  | _ => rcases hform with rfl | rfl <;> cases hnode

/-- Only mixed operators are reported. -/
theorem checkNullish_yields (e : Node) (s : ReadState) :
    Yields (checkNullish e) s fun _ s' =>
      ∀ t : Term, e.outline = t.node → t.Everywhere Term.IsUnmixed → s' = s := by
  rw [checkNullish]
  split
  · next left rest hparts =>
    refine yields_ite (fun hmixed => .of_forall fun _ s' t ht hunmixed => ?_) fun _ => ?_
    -- a mixed operator would be one of the term, which has none
    · obtain ⟨op, l, r, rfl, hleft⟩ := eq_binary_of_isLogical ht hmixed.1 hparts
      have hform : l.node.form = .binary .nullish := by
        rw [← hleft, Node.form_outline, hmixed.2]
      refine absurd hform (hunmixed.self.1 ?_)
      rw [← isLogical_eq_of_outline ht]
      exact hmixed.1
    · exact (yields_pure _).mpr fun _ _ _ => rfl
  · exact (yields_pure _).mpr fun _ _ _ => rfl

/-- A type behind an operand makes no term of it; where none is stated nothing happens. -/
theorem typedOperand?_yields (left : Node) (s : ReadState) :
    Yields (typedOperand? g left) s fun o s' =>
      (∃ n, o = some n ∧ n.IsForeign) ∨ (o = none ∧ s' = s) := by
  have hnone : Yields (pure none : Reading (Option Node)) s fun o s' =>
      (∃ n, o = some n ∧ n.IsForeign) ∨ (o = none ∧ s' = s) :=
    (yields_pure none).mpr (Or.inr ⟨rfl, rfl⟩)
  -- a type behind the operand makes it foreign to every term
  have hsome : ∀ n s', n.IsForeign →
      Yields (pure (some n) : Reading (Option Node)) s' fun o s' =>
        (∃ n, o = some n ∧ n.IsForeign) ∨ (o = none ∧ s' = s) := fun n s' hn =>
    (yields_pure (some n)).mpr (Or.inl ⟨n, rfl, hn⟩)
  unfold typedOperand?
  rw [yields_bind, yields_peek]
  refine yields_ite (fun _ => hnone) fun _ => ?_
  rw [yields_bind, yields_atWord?]
  refine yields_ite (fun _ => ?_) fun _ => ?_
  · refine yields_bind_of_forall fun _ s₁ => yields_bind_of_forall fun isConst s₂ => ?_
    refine yields_ite (fun _ => hsome _ s₂ (Node.isForeign_of_form rfl)) fun _ => ?_
    exact yields_bind_of_forall fun type s₃ => hsome _ s₃ (Node.isForeign_of_form rfl)
  · refine yields_bind.mpr (yields_eatWord (fun s₁ => ?_) hnone)
    exact yields_bind_of_forall fun type s₂ => hsome _ s₂ (Node.isForeign_of_form rfl)

/-- What is gathered when an operator with its right operand has been added, or when none stands
next that binds tightly enough. -/
def AddsOperation (first left : Node) (floor : Nat) (s : ReadState) : Option Node → Prop
  | some n => Gathered first floor Term.hold n s
  | none => Gathered first floor (fun _ => floor) left s

include hg in
/-- The right operand of an operator is gathered from its own first operand on. -/
theorem rightOperand_yields (op : BinaryOp) (s : ReadState) :
    Yields (g ()).unary s fun first s' =>
      Yields ((g ()).operators first (Term.floor op)) s'
        (Gathered first (Term.floor op) fun _ => Term.floor op) := by
  have hfloor : Term.floor op < Term.operandTightness :=
    (Term.floor_bounds op).1.trans_lt (Term.precedence_bounds op).2
  exact (hg.unary s).mono fun first s' hfirst => hg.operators first _ s' hfirst hfloor

include hg in
/-- An operator that stands next takes all of its left operand, or it is left to the caller. -/
theorem operation?_yields {first left : Node} {floor : Nat} {s : ReadState}
    (h : Gathered first floor Term.hold left s) :
    Yields (operation? g left floor) s fun o s' => AddsOperation first left floor s' o := by
  unfold operation?
  rw [yields_bind, yields_hasTypes]
  extract_lets infixed
  have hinfixed : Yields (infixed ()) s fun o s' => AddsOperation first left floor s' o := by
    unfold infixed
    rw [yields_bind, yields_peek, yields_bind, yields_scope]
    cases hop : s.operator? with
    | none =>
      rw [ReadState.operator?] at hop
      rw [hop]
      refine (yields_pure none).mpr (h.of_unmixed (fun _ _ _ => rfl) fun t op hop' => ?_)
      exact absurd (hop'.symm.trans hop) (Option.some_ne_none op)
    | some op =>
      rw [ReadState.operator?] at hop
      rw [hop]
      refine yields_ite (fun hle => ?_) fun hlt => ?_
      · refine (yields_pure none).mpr (h.of_unmixed (fun _ _ _ => rfl) fun t op' hop' _ => ?_)
        cases hop.symm.trans hop'
        exact hle
      -- Nothing has to be known of the state behind the operator: it was seen before it was passed.
      refine yields_bind_of_forall fun _ s₁ => ?_
      extract_lets operand
      have hoperand : Yields (operand ()) s₁ fun o s' => AddsOperation first left floor s' o := by
        unfold operand
        refine yields_bind.mpr ((rightOperand_yields hg op s₁).mono fun first' s₂ hright => ?_)
        refine yields_bind.mpr (hright.mono fun right s₃ hr => ?_)
        -- A report changes what stands next at most where operators are mixed.
        extract_lets result checkRight
        have hresult : ∀ s₄, ((op = .nullish → ¬ left.isLogical ∧ ¬ right.isLogical) → s₄ = s₃) →
            Yields (result ()) s₄ fun o s' => AddsOperation first left floor s' o := fun s₄ hs =>
          (yields_pure _).mpr (h.binary hop (Nat.lt_of_not_le hlt) hr left.place hs)
        refine yields_ite (fun hop' => ?_) fun _ => hresult s₃ fun _ => rfl
        have hcheckRight : ∀ s₄, (¬ left.isLogical → s₄ = s₃) →
            Yields (checkRight ()) s₄ fun o s' => AddsOperation first left floor s' o := by
          intro s₄ hs
          refine yields_ite (fun hmixed => ?_) fun _ => hresult s₄ fun hnone => hs (hnone hop').1
          refine yields_bind_of_forall fun _ s₅ => hresult s₅ fun hnone => ?_
          exact absurd hmixed (hnone hop').2
        refine yields_ite (fun hmixed => ?_) fun _ => hcheckRight s₃ fun _ => rfl
        exact yields_bind_of_forall fun _ s₄ => hcheckRight s₄ fun hnot => absurd hmixed hnot
      refine yields_ite (fun _ => ?_) fun _ => hoperand
      split
      · exact yields_bind.mpr yields_fail
      · exact yields_bind.mpr yields_fail
      · exact hoperand
  split
  · rw [yields_bind]
    refine (typedOperand?_yields left s).mono fun o s' ho => ?_
    rcases ho with ⟨n, rfl, hn⟩ | ⟨rfl, rfl⟩
    · exact (yields_pure _).mpr (.of_isForeign hn)
    · exact hinfixed
  · exact hinfixed

include hg in
/-- **Operators are gathered** as long as they bind tighter than the given number. -/
theorem operatorsRule_yields {first : Node} {floor : Nat} (s : ReadState)
    (hfirst : first.Grade Term.operandTightness) (hfloor : floor < Term.operandTightness) :
    Yields (operatorsRule g first floor) s (Gathered first floor fun _ => floor) := by
  unfold operatorsRule
  refine yields_iterate (I := fun left s => Gathered first floor Term.hold left s) ?_
    (hfirst.gathered hfloor)
  -- the invariant of the loop: what is gathered so far is held by the next operator
  intro left s' hleft
  refine yields_bind.mpr ((operation?_yields hg hleft).mono fun o s₁ ho => ?_)
  cases o with
  | some n =>
    refine yields_bind.mpr ((checkNullish_yields n s₁).mono fun _ s₂ hs => ?_)
    exact (yields_pure _).mpr (Gathered.of_unmixed ho hs fun _ _ _ => id)
  | none =>
    refine yields_bind.mpr ((checkNullish_yields left s₁).mono fun _ s₂ hs => ?_)
    exact (yields_pure _).mpr (Gathered.of_unmixed ho hs fun _ _ _ => id)

include hg in
/-- Operands with operators between them make no choice between two values. -/
theorem binaryRule_yields (s : ReadState) : Yields (binaryRule g) s fun e _ => e.Grade 1 := by
  have hoperators : ∀ first s', first.Grade Term.operandTightness →
      Yields (operatorsRule g first 0) s' fun e _ => e.Grade 1 := fun first s' hfirst =>
    (operatorsRule_yields hg s' hfirst (by decide)).mono fun _ _ h => h.grade
  unfold binaryRule
  refine yields_bind_of_forall fun hasMarkup s₁ => ?_
  refine yields_bind_of_forall fun atBracket s₂ => ?_
  refine yields_bind.mpr (yields_tolerate ((hg.unary s₂).mono fun left s₃ hleft => ?_)
    fun fault s₃ => ?_)
  · refine yields_ite (fun harrow => ?_) fun _ => hoperators left s₃ hleft
    exact (yields_pure _).mpr (Node.grade_of_form (by rw [harrow]; rfl) 1)
  · -- What stands for an operand that cannot be read is no term.
    have hinvalid : (Node.invalid fault.place).IsForeign := Node.isForeign_of_form rfl
    refine yields_bind_of_forall fun isEnd s₄ => ?_
    extract_lets rest
    have hrest : Yields (rest ()) s₄ fun e _ => e.Grade 1 := by
      refine yields_bind_of_forall fun t s₅ => yields_bind_of_forall fun scope s₆ => ?_
      refine yields_ite (fun _ => ?_) fun _ => yields_throw _
      refine yields_bind_of_forall fun place s₇ => yields_bind_of_forall fun _ s₈ => ?_
      exact hoperators _ s₈ (hinvalid.grade _)
    exact yields_ite (fun _ => yields_bind.mpr yields_failEnd) fun _ => hrest

include hg in
theorem choiceRest_yields {test : Node} (s : ReadState) (htest : test.Grade 1) :
    Yields (choiceRest g test) s IsWhole := by
  unfold choiceRest
  refine yields_bind.mpr (yields_inScope ((hg.assignment _).mono fun yes s₁ hyes => ?_))
  refine yields_bind_of_forall fun _ s₂ => ?_
  refine yields_bind.mpr (yields_inScope ((hg.assignment _).mono fun no s₃ hno => ?_))
  refine (yields_pure _).mpr ⟨htest.conditional hyes.1 hno.1, hno.2.imp_left ?_⟩
  intro hforeign t ht
  obtain ⟨c, y, n, rfl, -, -, hn⟩ := Node.eq_conditional_of_outline ht
  exact hforeign n hn

include hg in
theorem choiceRule_yields (s : ReadState) : Yields (choiceRule g) s IsWhole := by
  unfold choiceRule
  refine yields_bind.mpr ((binaryRule_yields hg s).mono fun test s₁ htest => ?_)
  refine yields_ite (fun harrow => ?_) fun _ => ?_
  · have hforeign : test.IsForeign := Node.isForeign_of_form (by rw [harrow]; rfl)
    exact (yields_pure _).mpr (hforeign.isWhole s₁)
  refine yields_bind.mpr (yields_eat (fun s₂ => ?_) fun hnext => ?_)
  · exact choiceRest_yields hg s₂ htest
  · exact (yields_pure _).mpr ⟨htest.mono (Nat.zero_le _), Or.inr hnext⟩

/-- An assignment is no term, and what is none is kept. -/
theorem assignmentRest_yields {left : Node} {Q : Node → ReadState → Prop} (s : ReadState)
    (hleft : Q left s) (hassign : ∀ e s', e.IsForeign → Q e s') :
    Yields (assignmentRest g left) s Q := by
  unfold assignmentRest
  rw [yields_bind, yields_peek]
  split
  · exact (yields_pure _).mpr hleft
  · next op _ =>
    extract_lets rest
    have hrest : ∀ target s', Yields (rest target) s' Q := by
      intro target s'
      refine yields_bind_of_forall fun _ s₁ => yields_bind_of_forall fun value s₂ => ?_
      exact (yields_pure _).mpr (hassign _ s₂ (Node.isForeign_of_form rfl))
    exact yields_ite (fun _ => yields_bind_of_forall hrest)
      fun _ => yields_bind_of_forall hrest

end Rules

end JsxWidgets.Syntax
