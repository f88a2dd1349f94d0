import JsxWidgets.Proofs.Expression.PrimaryRules
import JsxWidgets.Syntax.Grammar

/-!
# Rules for accesses, operands and assignments

Accesses and calls are gathered behind the expression that they belong to, and what has been
gathered can be accessed and called again. Operands and assignments are put together from the rules
before. At the end the circle of rules is closed: by induction on the depth, every grammar gives
well graded expressions (`isGraded_grammar`).
-/

namespace JsxWidgets.Syntax

open Expression Reading

/-! ### Accesses and calls -/

/-- An access that is marked as optional is no term. -/
theorem isForeign_accessNode {e selector : Node} : (accessNode true e selector).IsForeign :=
  Node.isForeign_of_form rfl

/-- A call that may not happen is no term. -/
theorem isForeign_callNode {e args types : Node} : (callNode true e args types).IsForeign :=
  Node.isForeign_of_form rfl

/-- An access to an expression that can be accessed can be accessed, if a key in brackets is well
graded. -/
theorem Node.Grade.accessNode {e selector : Node} (he : e.Grade Term.accessTightness)
    (hselector : selector.HoldsGraded .computed) :
    (accessNode false e selector).Grade Term.accessTightness := by
  unfold Syntax.accessNode
  split
  · exact grade_of_form rfl _
  · exact he.access hselector

/-- A call of such an expression can be accessed, if the arguments are well graded. -/
theorem Node.Grade.callNode {e types : Node} {items : List Node}
    (he : e.Grade Term.accessTightness) (hitems : ∀ i ∈ items, i.HoldsGraded .item) :
    (callNode false e (.list items) types).Grade Term.accessTightness := by
  unfold Syntax.callNode
  split
  · exact grade_of_form rfl _
  · exact he.call hitems

section Rules

variable {g : Rules} (hg : (g ()).IsGraded)

/-- Parts in parentheses are read one by one. -/
theorem yields_commaList {α : Type} {P : α → Prop} {close : String} {p : Reading α}
    (h : ∀ s, Yields p s fun a _ => P a) (s : ReadState) :
    Yields (commaList close p) s fun l _ => ∀ a ∈ l, P a := by
  refine yields_iterate (I := fun acc _ => ∀ a ∈ acc, P a) ?_ fun a ha => nomatch ha
  intro acc s₁ hacc
  refine yields_bind_of_forall fun closes s₂ => ?_
  refine yields_ite (fun _ => (yields_pure _).mpr ?_) fun _ => ?_
  · exact fun a ha => hacc a (List.mem_reverse.mp ha)
  refine yields_bind.mpr ((h s₂).mono fun a s₃ ha => ?_)
  have hmore : ∀ b ∈ a :: acc, P b := List.forall_mem_cons.mpr ⟨ha, hacc⟩
  refine yields_bind_of_forall fun goesOn s₄ => ?_
  refine yields_ite (fun _ => (yields_pure _).mpr hmore) fun _ => ?_
  refine yields_bind_of_forall fun _ s₅ => (yields_pure _).mpr ?_
  exact fun b hb => hmore b (List.mem_reverse.mp hb)

include hg in
/-- An argument holds a graded expression. -/
theorem item_holdsGraded (s : ReadState) : Yields (item g) s fun i _ => i.HoldsGraded .item := by
  refine (item_yields hg s).mono ?_
  rintro i s' (hform | ⟨place, e, rfl, he, -⟩)
  · exact Node.holdsGraded_of_form (by rw [hform]; exact Form.noConfusion)
  · exact he.holdsGraded

include hg in
/-- So do all arguments of a call. -/
theorem arguments_yields (s : ReadState) :
    Yields (arguments g) s fun list _ =>
      ∃ items, list = .list items ∧ ∀ i ∈ items, i.HoldsGraded .item := by
  unfold arguments
  refine yields_bind_of_forall fun _ s₁ => yields_bind_of_forall fun isEnd s₂ => ?_
  extract_lets result rest
  -- the list is closed in one place, whichever way its items were read
  have hresult : ∀ items s', (∀ i ∈ items, i.HoldsGraded .item) →
      Yields (result items) s' fun list _ =>
        ∃ items, list = .list items ∧ ∀ i ∈ items, i.HoldsGraded .item := fun items s' hitems =>
    (yields_pure _).mpr ⟨items, rfl, hitems⟩
  have hrest : ∀ empty s', Yields (rest empty) s' fun list _ =>
      ∃ items, list = .list items ∧ ∀ i ∈ items, i.HoldsGraded .item := by
    intro empty s'
    refine yields_ite (fun _ => ?_) fun _ => ?_
    · refine yields_bind_of_forall fun _ s₃ => yields_bind.mpr ((yields_pure _).mpr ?_)
      exact hresult [] s₃ fun i hi => nomatch hi
    · refine yields_bind.mpr (yields_inScope ?_)
      exact (yields_commaList (item_holdsGraded hg) _).mono fun items _ => hresult items _
  exact yields_ite (fun _ => yields_bind_of_forall hrest) fun _ => yields_bind_of_forall hrest

/-- A word behind a point is no key in brackets. -/
theorem memberName_yields (s : ReadState) :
    Yields memberName s fun selector _ => selector.HoldsGraded .computed := by
  have hleaf (form : Form) (place : Place) (h : form ≠ .computed) :
      (Node.leaf form place).HoldsGraded .computed := Node.holdsGraded_of_form h
  unfold memberName
  refine yields_bind_of_forall fun t s₁ => ?_
  split
  · exact yields_bind_of_forall fun _ s₂ => (yields_pure _).mpr (hleaf _ _ Form.noConfusion)
  · exact yields_bind_of_forall fun _ s₂ => (yields_pure _).mpr (hleaf _ _ Form.noConfusion)
  · exact yields_failName

include hg in
/-- A key in brackets is graded. -/
theorem memberInBrackets_yields (s : ReadState) :
    Yields (memberInBrackets g) s fun selector _ => selector.HoldsGraded .computed := by
  unfold memberInBrackets
  refine yields_bind_of_forall fun place s₁ => yields_bind_of_forall fun _ s₂ => ?_
  refine yields_bind.mpr (yields_inScope ((hg.expression _).mono fun e s₃ he => ?_))
  exact yields_bind_of_forall fun _ s₄ => (yields_pure _).mpr he.holdsGraded

/-- A tagged template is no term. -/
theorem taggedTemplate_yields (e types : Node) (s : ReadState) :
    Yields (taggedTemplate g e types) s fun n _ => n.IsForeign := by
  unfold taggedTemplate
  refine yields_bind_of_forall ?_
  rintro ⟨quasis, holes⟩ s₁
  have hdone : ∀ s', Yields (pure ⟨.tagged quasis, e.place, [e, types, .list holes]⟩) s'
      fun n _ => Node.IsForeign n := fun _ => (yields_pure _).mpr (Node.isForeign_of_form rfl)
  refine yields_ite (fun _ => ?_) fun _ => hdone s₁
  exact yields_bind_of_forall fun _ s₂ => hdone s₂

/-- Nor is an access that may not happen. -/
theorem optionalAccess_yields (e : Node) (s : ReadState) :
    Yields (optionalAccess g e) s fun n _ => n.IsForeign := by
  unfold optionalAccess
  refine yields_bind_of_forall fun atBracket s₁ => yields_ite (fun _ => ?_) fun _ => ?_
  · exact yields_bind_of_forall fun selector s₂ =>
      (yields_pure _).mpr isForeign_accessNode
  refine yields_bind_of_forall fun atParenthesis s₂ => yields_ite (fun _ => ?_) fun _ => ?_
  · exact yields_bind_of_forall fun args s₃ =>
      (yields_pure _).mpr isForeign_callNode
  refine yields_bind_of_forall fun types s₃ => ?_
  cases types with
  | some types =>
    exact yields_bind_of_forall fun args s₄ =>
      (yields_pure _).mpr isForeign_callNode
  | none =>
    exact yields_bind_of_forall fun selector s₄ =>
      (yields_pure _).mpr isForeign_accessNode

include hg in
/-- An access with types, if there is one, keeps that the expression can be accessed. -/
theorem typedAccess?_yields {e : Node} (called : Bool) (s : ReadState)
    (he : e.Grade Term.accessTightness) :
    Yields (typedAccess? g e called) s fun o _ => ∀ r ∈ o, r.1.Grade Term.accessTightness := by
  unfold typedAccess?
  extract_lets rest
  -- what follows the type arguments is the same in a trial and in a firm reading
  have hrest : ∀ types s', Yields (rest types) s' fun r _ => r.1.Grade Term.accessTightness := by
    intro types s'
    refine yields_bind_of_forall fun atParenthesis s₁ => yields_ite (fun _ => ?_) fun _ => ?_
    · refine yields_bind.mpr ((arguments_yields hg s₁).mono ?_)
      rintro list s₂ ⟨items, rfl, hitems⟩
      exact (yields_pure _).mpr (he.callNode hitems)
    refine yields_bind_of_forall fun atTemplate s₂ => yields_ite (fun _ => ?_) fun _ => ?_
    · refine yields_bind.mpr (yields_silently ?_)
      exact (taggedTemplate_yields e types _).mono fun n _ hn => (yields_pure _).mpr (hn.grade _)
    · exact (yields_pure _).mpr (Node.grade_of_form rfl _)
  have hnone : ∀ s', Yields (pure none : Reading (Option (Node × Bool))) s' fun o _ =>
      ∀ r ∈ o, r.1.Grade Term.accessTightness := fun _ => (yields_pure _).mpr fun r hr => nomatch hr
  have hsome : ∀ r : Node × Bool, r.1.Grade Term.accessTightness →
      ∀ r' ∈ some r, r'.1.Grade Term.accessTightness := by
    rintro r hr r' ⟨⟩
    exact hr
  refine yields_ite (fun _ => ?_) fun _ => ?_
  -- a trial may be given up, and then nothing was read
  · refine yields_attempt (yields_silently ?_) fun r hr => nomatch hr
    refine yields_bind_of_forall fun types s₁ => ?_
    cases types with
    | some types => exact (hrest types s₁).mono fun r _ hr => hsome r hr
    | none => exact yields_fail
  · refine yields_bind_of_forall fun types s₁ => ?_
    cases types with
    | some types =>
      exact yields_bind.mpr ((hrest types s₁).mono fun r _ hr => (yields_pure _).mpr (hsome r hr))
    | none => exact hnone s₁

/-- What a round of accesses and calls gives: an expression that can be accessed and called. -/
def AccessRound : Round (Node × Bool) Node → ReadState → Prop :=
  RoundOf (fun x _ => x.1.Grade Term.accessTightness) fun e _ => e.Grade Term.accessTightness

include hg in
/-- **Accesses and calls behind an expression** bind as tightly as the expression. -/
theorem accesses_yields {first : Node} (mayCall called : Bool) (s : ReadState)
    (hfirst : first.Grade Term.accessTightness) :
    Yields (accesses g mayCall first called) s fun e _ => e.Grade Term.accessTightness := by
  unfold accesses
  -- Every round leaves an expression behind which accesses and calls can go on.
  refine yields_iterate (I := fun x _ => x.1.Grade Term.accessTightness) ?_ hfirst
  rintro ⟨e, called⟩ s₁ he
  refine yields_bind_of_forall fun t s₂ => ?_
  have hmore : ∀ x s', x.1.Grade Term.accessTightness →
      Yields (pure (.more x)) s' AccessRound := fun _ _ hx => (yields_pure _).mpr hx
  have hdone : ∀ s', Yields (pure (.done e)) s' AccessRound := fun _ => (yields_pure _).mpr he
  split
  case h_1 =>
    refine yields_bind_of_forall fun _ s₃ => ?_
    refine yields_bind.mpr ((memberName_yields s₃).mono fun selector s₄ hselector => ?_)
    exact hmore _ s₄ (he.accessNode hselector)
  case h_2 =>
    refine yields_bind.mpr ((memberInBrackets_yields hg s₂).mono fun selector s₃ hselector => ?_)
    exact hmore _ s₃ (he.accessNode hselector)
  case h_3 =>
    extract_lets behind
    have hbehind : Yields (behind ()) s₂ AccessRound := by
      refine yields_bind_of_forall fun _ s₃ => ?_
      refine yields_bind.mpr ((optionalAccess_yields e s₃).mono fun n s₄ hn => ?_)
      exact hmore _ s₄ (hn.grade _)
    exact yields_ite (fun _ => hbehind) fun _ => yields_bind.mpr yields_fail
  case h_4 =>
    refine yields_ite (fun _ => ?_) fun _ => hdone s₂
    refine yields_bind.mpr ((arguments_yields hg s₂).mono ?_)
    rintro list s₃ ⟨items, rfl, hitems⟩
    exact hmore _ s₃ (he.callNode hitems)
  case h_5 =>
    refine yields_bind.mpr ((taggedTemplate_yields e _ s₂).mono fun n s₃ hn => ?_)
    exact hmore _ s₃ (hn.grade _)
  case h_6 =>
    refine yields_bind_of_forall fun types s₃ => yields_ite (fun _ => ?_) fun _ => hdone s₃
    refine yields_bind_of_forall fun _ s₄ => hmore _ s₄ ?_
    exact Node.grade_of_form rfl _
  case h_7 | h_8 =>
    refine yields_ite (fun _ => hdone s₂) fun _ => ?_
    refine yields_bind.mpr ((typedAccess?_yields hg called s₂ he).mono fun o s₃ ho => ?_)
    cases o with
    | some next => exact hmore next s₃ (ho next rfl)
    | none => exact hdone s₃
  case h_9 => exact hdone s₂

/-- A call of something that is no term is none. -/
theorem isForeign_call {f args types : Node} {place : Place} (hf : f.IsForeign) :
    Node.IsForeign ⟨.call, place, [f, args, types]⟩ := by
  intro t ht
  cases t with
  | call f' items =>
    simp only [Node.outline, Node.outlines, Term.node, Node.mk.injEq, List.cons.injEq] at ht
    exact hf f' ht.2.2.1
  | _ => simp [Node.outline, Node.outlines, Term.node, Node.leaf] at ht

/-- What starts with the parent class is no term. -/
theorem parentAccess_yields (place : Place) (s : ReadState) :
    Yields (parentAccess g place) s fun e _ => e.IsForeign := by
  unfold parentAccess
  refine yields_bind_of_forall fun atParenthesis s₁ => yields_ite (fun _ => ?_) fun _ => ?_
  · refine yields_bind_of_forall fun args s₂ => (yields_pure _).mpr (isForeign_call ?_)
    exact Node.isForeign_of_form rfl
  refine yields_bind_of_forall fun scope s₂ => ?_
  extract_lets member
  have hmember : Yields (member ()) s₂ fun e _ => e.IsForeign := by
    refine yields_bind_of_forall fun hasPoint s₃ => yields_ite (fun _ => ?_) fun _ => ?_
    · exact yields_bind_of_forall fun _ s₄ => (yields_pure _).mpr (Node.isForeign_of_form rfl)
    · exact yields_bind_of_forall fun _ s₄ => (yields_pure _).mpr (Node.isForeign_of_form rfl)
  exact yields_ite (fun _ => hmember) fun _ => yields_bind.mpr yields_fail

/-- Nor is an import that is called. -/
theorem importAccess_yields (place : Place) (s : ReadState) :
    Yields (importAccess g place) s fun e _ => e.IsForeign := by
  unfold importAccess
  refine yields_bind_of_forall fun hasPoint s₁ => yields_ite (fun _ => ?_) fun _ => ?_
  · exact yields_bind_of_forall fun _ s₂ => (yields_pure _).mpr (Node.isForeign_of_form rfl)
  refine yields_bind_of_forall fun _ s₂ => yields_bind_of_forall fun args s₃ => ?_
  exact (yields_pure _).mpr (isForeign_call (Node.isForeign_of_form rfl))

include hg in
/-- **What can be called or accessed**, with the accesses and calls behind it. -/
theorem accessRoot_yields (s : ReadState) :
    Yields (accessRoot g) s fun r _ => r.1.Grade Term.accessTightness := by
  unfold accessRoot
  refine yields_bind_of_forall fun place s₁ => yields_bind_of_forall fun atNew s₂ => ?_
  refine yields_ite (fun _ => ?_) fun _ => ?_
  · exact yields_bind.mpr ((hg.construction s₂).mono fun e _ he => (yields_pure _).mpr (he.grade _))
  refine yields_bind_of_forall fun atSuper s₃ => yields_ite (fun _ => ?_) fun _ => ?_
  · exact yields_bind.mpr ((parentAccess_yields place s₃).mono fun e _ he =>
      (yields_pure _).mpr (he.grade _))
  refine yields_bind_of_forall fun atImport s₄ => yields_ite (fun _ => ?_) fun _ => ?_
  · exact yields_bind.mpr ((importAccess_yields place s₄).mono fun e _ he =>
      (yields_pure _).mpr (he.grade _))
  · exact yields_bind.mpr ((primary_yields hg s₄).mono fun e _ he => (yields_pure _).mpr he)

/-- Nor is a construction. -/
theorem constructionRule_yields (s : ReadState) :
    Yields (constructionRule g) s fun e _ => e.IsForeign := by
  unfold constructionRule
  refine yields_bind_of_forall fun place s₁ => yields_bind_of_forall fun _ s₂ => ?_
  refine yields_bind_of_forall fun hasPoint s₃ => yields_ite (fun _ => ?_) fun _ => ?_
  · refine yields_bind_of_forall fun _ s₄ => yields_bind_of_forall fun scope s₅ => ?_
    extract_lets target
    have htarget : ∀ s', Yields (target ()) s' fun e _ => e.IsForeign := fun _ =>
      (yields_pure _).mpr (Node.isForeign_of_form rfl)
    refine yields_ite (fun _ => htarget s₅) fun _ => yields_bind_of_forall fun _ s₆ => htarget s₆
  refine yields_bind_of_forall fun atImport s₄ => ?_
  refine yields_ite (fun _ => yields_bind.mpr yields_fail) fun _ => yields_bind_of_forall ?_
  rintro ⟨root, called⟩ s₅
  refine yields_ite (fun harrow => ?_) fun _ => ?_
  · exact (yields_pure _).mpr (Node.isForeign_of_form (by rw [harrow]; rfl))
  refine yields_bind_of_forall fun callee s₆ => yields_bind_of_forall fun types s₇ => ?_
  refine yields_bind_of_forall fun atParenthesis s₈ => ?_
  -- with and without parentheses the construction is the same node
  have hconstruct (args : Node) (s' : ReadState) :
      Yields (pure ⟨.construct, place, [callee, args, types.getD (.list [])]⟩) s'
        fun e _ => Node.IsForeign e := (yields_pure _).mpr (Node.isForeign_of_form rfl)
  exact yields_ite (fun _ => yields_bind_of_forall hconstruct)
    fun _ => yields_bind_of_forall hconstruct

include hg in
/-- **What the rule for accesses gives can be accessed.** -/
theorem accessRule_yields (s : ReadState) :
    Yields (accessRule g) s fun e _ => e.Grade Term.accessTightness := by
  unfold accessRule
  refine yields_bind_of_forall fun hasMarkup s₁ => yields_bind_of_forall fun isEnd s₂ => ?_
  refine yields_ite (fun _ => yields_bind.mpr yields_failEnd) fun _ => ?_
  refine yields_bind_of_forall fun hasMarkup s₃ => yields_bind_of_forall fun atBracket s₄ => ?_
  refine yields_ite (fun _ => ?_) fun _ => ?_
  · refine yields_bind_of_forall fun place s₅ => yields_bind_of_forall fun markup s₆ => ?_
    exact (yields_pure _).mpr (Node.grade_of_form rfl _)
  refine yields_bind.mpr ((accessRoot_yields hg s₄).mono ?_)
  rintro ⟨root, called⟩ s₅ hroot
  refine yields_ite (fun _ => (yields_pure _).mpr hroot) fun _ => ?_
  exact accesses_yields hg true called s₅ hroot

/-! ### Operands -/

/-- So can a name called `await`, where that is one; what is awaited is no term. -/
theorem awaited_yields (place : Place) (s : ReadState) :
    Yields (awaited g place) s fun e _ => e.Grade Term.accessTightness := by
  unfold awaited
  refine yields_bind_of_forall fun atStar s₁ => ?_
  refine yields_ite (fun _ => yields_bind.mpr yields_fail) fun _ => ?_
  refine yields_bind_of_forall fun scope s₂ => yields_bind_of_forall fun next s₃ => ?_
  refine yields_bind_of_forall fun isEnd s₄ => ?_
  extract_lets endsHere operand checked
  have hoperand : ∀ s', Yields (operand ()) s' fun e _ => e.Grade Term.accessTightness := by
    intro s'
    refine yields_bind_of_forall fun e s₅ => (yields_pure _).mpr ?_
    exact Node.grade_of_form rfl _
  -- the fault that may be noted in front of the operand does not touch the result
  have hchecked : ∀ s', Yields (checked ()) s' fun e _ => e.Grade Term.accessTightness := fun s' =>
    yields_ite (fun _ => yields_bind_of_forall fun _ s₅ => hoperand s₅) fun _ => hoperand s'
  refine yields_ite (fun _ => ?_) fun _ => ?_
  · exact yields_bind_of_forall fun _ s₅ => (yields_pure _).mpr (Node.grade_leaf _)
  · exact yields_ite (fun _ => yields_bind_of_forall fun _ s₅ => hchecked s₅) fun _ => hchecked s₄

include hg in
/-- An operator with its operand binds as tightly as operands do. -/
theorem prefixed_yields (op : UnaryOp) (s : ReadState) :
    Yields (prefixed g op) s fun e _ => e.Grade Term.operandTightness := by
  unfold prefixed
  refine yields_bind_of_forall fun place s₁ => yields_bind_of_forall fun _ s₂ => ?_
  refine yields_bind_of_forall fun before s₃ => ?_
  extract_lets before result
  -- an operand that could not be read is put in as a missing node, of every grade
  have hresult : ∀ e s', e.Grade Term.operandTightness →
      Yields (result e) s' fun e _ => e.Grade Term.operandTightness := by
    intro e s' he
    have hdone : ∀ s', Yields (pure ⟨.unary op, place, [e]⟩) s' fun e _ =>
        Node.Grade Term.operandTightness e := fun _ => (yields_pure _).mpr (he.unary op)
    exact yields_ite (fun _ => yields_bind_of_forall fun _ s₄ => hdone s₄) fun _ => hdone s'
  refine yields_bind.mpr (yields_tolerate ((hg.unary s₃).mono fun e s₄ he => ?_) fun fault s₄ => ?_)
  · exact yields_bind.mpr ((yields_pure _).mpr (hresult e s₄ he))
  · refine yields_bind_of_forall fun _ s₅ => yields_bind.mpr ((yields_pure _).mpr ?_)
    exact hresult _ s₅ (Node.grade_of_form rfl _)

/-- An assertion in front of an operand is no term. -/
theorem typeAssertion_yields (s : ReadState) :
    Yields (typeAssertion g) s fun e _ => e.IsForeign := by
  unfold typeAssertion
  refine yields_bind_of_forall fun place s₁ => yields_bind_of_forall fun _ s₂ => ?_
  refine yields_bind_of_forall fun isConst s₃ => yields_ite (fun _ => ?_) fun _ => ?_
  · refine yields_bind_of_forall fun _ s₄ => yields_bind_of_forall fun e s₅ => ?_
    exact (yields_pure _).mpr (Node.isForeign_of_form rfl)
  · refine yields_bind_of_forall fun type s₄ => yields_bind_of_forall fun _ s₅ => ?_
    refine yields_bind_of_forall fun e s₆ => (yields_pure _).mpr (Node.isForeign_of_form rfl)

include hg in
/-- An operand with a counting operator behind it binds as tightly as operands do. -/
theorem postfixed_yields (s : ReadState) :
    Yields (postfixed g) s fun e _ => e.Grade Term.operandTightness := by
  unfold postfixed
  refine yields_bind.mpr ((accessRule_yields hg s).mono fun e s₁ he => ?_)
  have hdone : ∀ s', Yields (pure e) s' fun e _ => e.Grade Term.operandTightness := fun _ =>
    (yields_pure _).mpr (he.mono (by decide))
  refine yields_ite (fun _ => hdone s₁) fun _ => ?_
  refine yields_bind_of_forall fun after s₂ => ?_
  split
  · next op _ =>
    refine yields_ite (fun _ => hdone s₂) fun _ => ?_
    refine yields_bind_of_forall fun _ s₃ => yields_bind_of_forall fun _ s₄ => ?_
    exact (yields_pure _).mpr (he.updateBehind op)
  · exact hdone s₂

include hg in
/-- **An operand binds tighter than all operators between operands.** -/
theorem unaryRule_yields (s : ReadState) :
    Yields (unaryRule g) s fun e _ => e.Grade Term.operandTightness := by
  unfold unaryRule
  refine yields_bind_of_forall fun t s₁ => ?_
  -- an operator, an update, `await`, a type assertion, or no prefix at all
  split
  · exact prefixed_yields hg _ s₁
  · next op _ _ =>
    refine yields_bind_of_forall fun _ s₂ => ?_
    refine yields_bind.mpr ((hg.unary s₂).mono fun e s₃ he => ?_)
    exact yields_bind_of_forall fun _ s₄ => (yields_pure _).mpr (he.updateInFront op)
  refine yields_bind_of_forall fun isAwait s₂ => yields_ite (fun _ => ?_) fun _ => ?_
  · exact (awaited_yields t.place s₂).mono fun e _ he => he.mono (by decide)
  refine yields_bind_of_forall fun types s₃ => yields_bind_of_forall fun hasMarkup s₄ => ?_
  refine yields_bind_of_forall fun atBracket s₅ => yields_ite (fun _ => ?_) fun _ => ?_
  · exact (typeAssertion_yields s₅).mono fun e _ he => he.grade _
  · exact postfixed_yields hg s₅

/-! ### Assignments and sequences -/

/-- What a generator yields is no term. -/
theorem yielding_yields (s : ReadState) : Yields (yielding g) s fun e _ => e.IsForeign := by
  unfold yielding
  refine yields_bind_of_forall fun place s₁ => yields_bind_of_forall fun _ s₂ => ?_
  refine yields_bind_of_forall fun scope s₃ => ?_
  refine yields_ite (fun _ => yields_bind.mpr yields_fail) fun _ => ?_
  refine yields_bind_of_forall fun isEnd s₄ => yields_bind_of_forall fun next s₅ => ?_
  refine yields_ite (fun _ => (yields_pure _).mpr (Node.isForeign_of_form rfl)) fun _ => ?_
  refine yields_bind_of_forall fun _ s₆ => yields_bind_of_forall fun e s₇ => ?_
  exact (yields_pure _).mpr (Node.isForeign_of_form rfl)

include hg in
/-- **An expression without a comma is whole**: with an assignment it is no term, and else it is a
choice. -/
theorem plainAssignment_yields (s : ReadState) :
    Yields (plainAssignment g) s IsWhole := by
  unfold plainAssignment
  refine yields_bind_of_forall fun atYield s₁ => yields_bind_of_forall fun scope s₂ => ?_
  refine yields_ite (fun _ => ?_) fun _ => ?_
  · exact (yielding_yields s₂).mono fun e s' he => he.isWhole s'
  refine yields_bind_of_forall fun t s₃ => yields_bind_of_forall fun _ s₄ => ?_
  refine yields_bind.mpr ((choiceRule_yields hg s₄).mono fun left s₅ hleft => ?_)
  split
  case h_6 => exact assignmentRest_yields s₅ hleft fun e s' he => he.isWhole s'
  all_goals exact (yields_pure _).mpr hleft

/-- A generic arrow is no term. -/
theorem genericArrow_yields (s : ReadState) :
    Yields (genericArrow g) s fun e _ => e.IsForeign := by
  unfold genericArrow
  refine yields_bind_of_forall fun place s₁ => yields_bind_of_forall fun next s₂ => ?_
  refine yields_ite (fun _ => ?_) fun _ => yields_bind.mpr yields_fail
  refine yields_inScope (yields_bind_of_forall fun generic s₃ => ?_)
  refine yields_bind_of_forall fun e s₄ => ?_
  split
  · exact (yields_pure _).mpr (Node.isForeign_of_form rfl)
  · exact yields_fail

include hg in
/-- **An expression without a comma** is well graded, and no choice goes on behind it. -/
theorem assignmentRule_yields (s : ReadState) :
    Yields (assignmentRule g) s IsWhole := by
  unfold assignmentRule
  refine yields_bind_of_forall fun types s₁ => yields_bind_of_forall fun atBracket s₂ => ?_
  have hplain : ∀ s', Yields (plainAssignment g) s' IsWhole := plainAssignment_yields hg
  refine yields_ite (fun _ => ?_) fun _ => hplain s₂
  refine yields_bind_of_forall fun hasMarkup s₃ => yields_ite (fun _ => ?_) fun _ => ?_
  · -- Reading silently forgets faults, but not the token that stands next.
    refine yields_orElse (yields_silently (hplain _)) (yields_silently ?_)
    exact (genericArrow_yields _).mono fun e s' he => he.isWhole s'
  · refine yields_bind.mpr (yields_attempt (yields_silently ?_) (hplain s₃))
    exact (genericArrow_yields _).mono fun e s' he => (yields_pure _).mpr (he.isWhole s')

include hg in
/-- **A whole expression is well graded.** -/
theorem expressionRule_yields (s : ReadState) :
    Yields (expressionRule g) s fun e _ => e.Grade 0 := by
  unfold expressionRule
  refine yields_bind.mpr ((hg.assignment s).mono fun first s₁ hfirst => ?_)
  refine yields_bind_of_forall fun atComma s₂ => ?_
  refine yields_ite (fun _ => (yields_pure _).mpr hfirst.1) fun _ => ?_
  exact yields_bind_of_forall fun all s₃ =>
    (yields_pure _).mpr (Node.grade_of_form rfl 0)

end Rules

/-- **Every grammar gives well graded expressions**, down to any depth. -/
theorem isGraded_grammar (depth : Nat) : (grammar depth).IsGraded := by
  induction depth with
  | zero =>
    -- No rule gives anything.
    exact ⟨fun _ => yields_fail, fun _ => yields_fail, fun _ _ _ _ _ => yields_fail,
      fun _ => yields_fail, fun _ => yields_fail, fun _ => yields_fail⟩
  | succ depth ih =>
    let rules : Rules := fun _ => grammar depth
    have hrules : (rules ()).IsGraded := ih
    exact ⟨expressionRule_yields hrules, assignmentRule_yields hrules,
      fun _ _ s => operatorsRule_yields hrules s, unaryRule_yields hrules, accessRule_yields hrules,
      constructionRule_yields⟩

end JsxWidgets.Syntax
