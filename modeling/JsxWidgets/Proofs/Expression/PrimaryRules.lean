import JsxWidgets.Proofs.Expression.OperatorRules
import JsxWidgets.Syntax.Grammar.Arrows

/-!
# Rules for parentheses and for what stands for itself

What stands in parentheses may turn out to be parameters, so its items are read as expressions that
may be patterns. Two things have to be seen to. An item that is read again as a pattern is no item
any more. And where types may be stated, a question mark behind an item may mark a parameter as
optional; only when it does not is the item the test of a choice, and then it has to bind tightly
enough for that (`IsParenItem`).
-/

namespace JsxWidgets.Syntax

open Expression Reading

/-! ### Patterns are no items -/

/-- A pattern with a type has the form of the pattern. -/
theorem form_withType (pattern type : Node) : (pattern.withType type).form = pattern.form := by
  unfold Node.withType
  split <;> rfl

/-- What a part of a list becomes if it is read as a pattern that binds names. -/
theorem form_asPattern {commas : List (Place × Place)} {e pattern : Node} {faults : List Fault}
    (h : e.asPattern commas .binding = some (pattern, faults)) : pattern.form ≠ .item := by
  unfold Node.asPattern at h
  split at h
  · cases h
    exact Form.noConfusion
  -- every shape that can be read again gives a pattern, and no pattern is an item
  · split at h <;>
    · cases h
      exact Form.noConfusion
  · cases h
    exact Form.noConfusion
  · obtain ⟨_, -, heq⟩ := Option.map_eq_some_iff.mp h
    cases heq
    exact Form.noConfusion
  · obtain ⟨_, -, heq⟩ := Option.map_eq_some_iff.mp h
    cases heq
    exact Form.noConfusion
  · simp only [reduceCtorEq, decide_false, Bool.false_and, Bool.false_eq_true, if_false] at h
    cases h
    exact Form.noConfusion

/-- An expression that is read again as a pattern is no item. -/
theorem rereadAs_yields (e : Node) (s : ReadState) :
    Yields (rereadAs .binding e) s fun pattern _ => pattern.form ≠ .item := by
  unfold rereadAs
  rw [yields_bind, yields_get]
  split
  · next pattern faults heq =>
    exact yields_bind_of_forall fun _ s₁ => (yields_pure _).mpr (form_asPattern heq)
  · exact yields_failWith _ _

section Rules

variable {g : Rules}

/-- An item with a type or a default is a pattern. -/
theorem typedItem_yields (arg : Node) (s : ReadState) :
    Yields (typedItem g arg) s fun n _ => n.form ≠ .item := by
  unfold typedItem
  extract_lets rest
  -- the type and the default are put around the pattern, which stays one
  have hrest : ∀ pattern s', pattern.form ≠ .item →
      Yields (rest pattern) s' fun n _ => n.form ≠ .item := by
    intro pattern s' hpattern
    refine yields_bind_of_forall fun type s₁ => yields_bind_of_forall fun hasDefault s₂ => ?_
    refine yields_ite (fun _ => ?_) fun _ => ?_
    · exact yields_bind_of_forall fun value s₃ => (yields_pure _).mpr Form.noConfusion
    · exact (yields_pure _).mpr (by rwa [form_withType])
  split
  · refine yields_bind_of_forall fun e s₁ => ?_
    exact yields_bind.mpr ((yields_pure _).mpr (hrest _ s₁ Form.noConfusion))
  · exact yields_bind.mpr ((rereadAs_yields _ s).mono fun pattern s₁ h => hrest pattern s₁ h)
  · exact yields_bind.mpr yields_fail

variable (hg : (g ()).IsGraded)

/-! ### Items -/

include hg in
/-- An argument of a call, or an item of an array. -/
theorem item_yields (s : ReadState) :
    Yields (item g) s fun i s' => i.form = .spread ∨
      ∃ place e, i = ⟨.item, place, [e]⟩ ∧ IsWhole e s' := by
  unfold item
  refine yields_bind_of_forall fun place s₁ => yields_bind_of_forall fun isSpread s₂ => ?_
  refine yields_ite (fun _ => ?_) fun _ => ?_
  · exact yields_bind_of_forall fun e s₃ => (yields_pure _).mpr (Or.inl rfl)
  · refine yields_bind.mpr ((hg.assignment s₂).mono fun e s₃ he => ?_)
    exact (yields_pure _).mpr (Or.inr ⟨place, e, rfl, he⟩)

/-- **An item in parentheses as an expression.** If a question mark stands behind it, then the
expression can be the test of a choice. -/
def IsParenItem (i : Node) (s : ReadState) : Prop :=
  i.form = .spread ∨ ∃ place e, i = ⟨.item, place, [e]⟩ ∧ e.Grade 0 ∧
    (s.token.kind = .punct "?" → e.Grade 1)

/-- An item in parentheses holds a graded expression. -/
theorem IsParenItem.holdsGraded {i : Node} {s : ReadState} (h : IsParenItem i s) :
    i.HoldsGraded .item := by
  rcases h with h | ⟨place, e, rfl, he, -⟩
  · exact Node.holdsGraded_of_form (by rw [h]; exact Form.noConfusion)
  · exact he.holdsGraded

include hg in
/-- What stands in parentheses is such an item. -/
theorem parenExpression_yields (s : ReadState) : Yields (parenExpression g) s IsParenItem := by
  unfold parenExpression
  refine yields_bind_of_forall fun t s₁ => yields_bind_of_forall fun next s₂ => ?_
  refine yields_bind_of_forall fun types s₃ => ?_
  refine yields_ite (fun _ => yields_ite (fun _ => ?_) fun _ => ?_) fun _ => ?_
  · refine yields_bind_of_forall fun _ s₄ => yields_bind_of_forall fun e s₅ => ?_
    exact (yields_pure _).mpr (Or.inl rfl)
  -- an expression in front of a question mark is graded higher than an item needs
  · refine yields_bind.mpr ((binaryRule_yields hg s₃).mono fun e s₄ he => ?_)
    refine yields_bind.mpr (assignmentRest_yields s₄ ?_ fun e' s₅ he' => ?_)
    · exact (yields_pure _).mpr (Or.inr ⟨_, e, rfl, he.mono (Nat.zero_le _), fun _ => he⟩)
    · exact (yields_pure _).mpr (Or.inr ⟨_, e', rfl, he'.grade 0, fun _ => he'.grade 1⟩)
  · refine (item_yields hg s₃).mono fun i s₄ hi => hi.imp_right ?_
    rintro ⟨place, e, rfl, he, hnext⟩
    refine ⟨place, e, rfl, he, fun hquestion => ?_⟩
    rcases hnext with hforeign | hnext
    · exact hforeign.grade 1
    · exact absurd hquestion hnext

include hg in
/-- So it is with a question mark behind it, whatever that turns out to be. -/
theorem questionBehind_yields {arg : Node} {s : ReadState} (harg : IsParenItem arg s) :
    Yields (questionBehind g arg) s fun r _ => r.1.HoldsGraded .item := by
  have hdone : ∀ optional s', Yields (pure (arg, optional) : Reading (Node × Bool)) s' fun r _ =>
      r.1.HoldsGraded .item := fun _ _ => (yields_pure _).mpr harg.holdsGraded
  unfold questionBehind
  rw [yields_bind, yields_hasTypes, yields_bind, yields_at?]
  refine yields_ite (fun _ => hdone _ _) fun hquestion => ?_
  refine yields_bind_of_forall fun next s₁ => ?_
  extract_lets choice marked
  -- The question mark stands next, or nothing would be read here.
  have htest : ∀ place test, arg = ⟨.item, place, [test]⟩ → test.Grade 1 := by
    rintro place test rfl
    rcases harg with hform | ⟨_, e, heq, -, he⟩
    · cases hform
    · cases heq
      refine he (beq_iff_eq.mp ?_)
      simpa using fun h => hquestion (Or.inr h)
  have hchoice : ∀ s', Yields (choice ()) s' fun r _ => r.1.HoldsGraded .item := by
    intro s'
    unfold choice
    split
    · next place test =>
      refine yields_bind_of_forall fun _ s₂ => ?_
      have htest' := htest place test rfl
      refine yields_bind.mpr ((choiceRest_yields hg s₂ htest').mono fun e s₃ he => ?_)
      exact (yields_pure _).mpr he.1.holdsGraded
    · exact hdone _ s'
  have hmarked : ∀ s', Yields (marked ()) s' fun r _ => r.1.HoldsGraded .item := by
    intro s'
    unfold marked
    split
    · exact hdone _ s'
    · exact yields_bind.mpr yields_fail
  refine yields_ite (fun _ => ?_) fun _ => hchoice s₁
  refine yields_bind_of_forall fun _ s₂ => ?_
  refine yields_ite (fun _ => ?_) fun _ => hmarked s₂
  exact yields_bind_of_forall fun place s₃ => yields_bind_of_forall fun _ s₄ => hmarked s₄

include hg in
/-- Every item of a list in parentheses holds a graded expression. -/
theorem parenItem_yields (s : ReadState) :
    Yields (parenItem g) s fun i _ => i.HoldsGraded .item := by
  unfold parenItem
  refine yields_bind_of_forall fun place s₁ => yields_bind_of_forall fun _ s₂ => ?_
  refine yields_bind_of_forall fun isField s₃ => ?_
  refine yields_bind.mpr ((parenExpression_yields hg s₃).mono fun arg s₄ harg => ?_)
  refine yields_bind.mpr ((questionBehind_yields hg harg).mono fun r s₅ hr => ?_)
  obtain ⟨arg', isOptional⟩ := r
  refine yields_bind_of_forall fun types s₆ => yields_bind_of_forall fun isTyped s₇ => ?_
  extract_lets rest
  -- a comma that is read behind the item leaves it as it is
  have hrest : ∀ i s', i.HoldsGraded .item → Yields (rest i) s' fun i _ => i.HoldsGraded .item := by
    intro i s' hi
    refine yields_ite (fun _ => ?_) fun _ => (yields_pure _).mpr hi
    exact yields_bind_of_forall fun _ s₈ => (yields_pure _).mpr hi
  refine yields_ite (fun _ => ?_) fun _ => ?_
  · refine yields_bind.mpr ((typedItem_yields arg' s₇).mono fun i s₈ hi => hrest i s₈ ?_)
    exact Node.holdsGraded_of_form hi
  · exact yields_bind.mpr ((yields_pure _).mpr (hrest _ s₇ hr))

/-! ### Arrow functions -/

/-- An arrow function is no term. -/
theorem isForeign_arrowNode {place : Place} {params : List Node} {code generic result : Node} :
    (arrowNode place params code generic result).IsForeign :=
  Node.isForeign_of_form rfl

/-- Nor is one with a name as its parameter. -/
theorem nameArrow_yields (place : Place) (isAsync : Bool) (name : Place × String) (s : ReadState) :
    Yields (nameArrow g place isAsync name) s fun e _ => e.IsForeign := by
  unfold nameArrow
  refine yields_bind_of_forall fun _ s₁ => yields_bind_of_forall fun code s₂ => ?_
  exact (yields_pure _).mpr isForeign_arrowNode

/-- Nor is an asynchronous one with types. -/
theorem asyncGenericArrow_yields (s : ReadState) :
    Yields (asyncGenericArrow g) s fun e _ => e.IsForeign := by
  unfold asyncGenericArrow
  refine yields_bind_of_forall fun place s₁ => yields_bind_of_forall fun _ s₂ => ?_
  refine yields_bind_of_forall fun generic s₃ => yields_bind_of_forall fun _ s₄ => ?_
  refine yields_bind_of_forall fun params s₅ => yields_bind_of_forall fun _ s₆ => ?_
  refine yields_bind_of_forall fun result s₇ => yields_bind_of_forall fun _ s₈ => ?_
  refine yields_bind_of_forall fun code s₉ => ?_
  exact (yields_pure _).mpr isForeign_arrowNode

/-- Nor is one in a branch of a choice. -/
theorem arrowInChoice_yields (place : Place) (isAsync : Bool) (items : List Node) (s : ReadState) :
    Yields (arrowInChoice g place isAsync items) s fun e _ => e.IsForeign := by
  unfold arrowInChoice
  refine yields_bind_of_forall fun result s₁ => yields_bind_of_forall fun _ s₂ => ?_
  refine yields_bind_of_forall fun params s₃ => yields_bind_of_forall fun code s₄ => ?_
  refine yields_bind_of_forall fun scope s₅ => yields_bind_of_forall fun atColon s₆ => ?_
  exact yields_ite (fun _ => yields_bind.mpr yields_fail)
    fun _ => (yields_pure _).mpr isForeign_arrowNode

include hg in
/-- An operator behind an arrow function is no term. -/
theorem behindArrow_yields {arrow : Node} (s : ReadState) (harrow : arrow.IsForeign) :
    Yields (behindArrow g arrow) s fun e _ => e.IsForeign := by
  unfold behindArrow
  refine yields_bind_of_forall fun isStray s₁ => ?_
  refine yields_ite (fun _ => ?_) fun _ => (yields_pure _).mpr harrow
  refine yields_bind_of_forall fun place s₂ => yields_bind_of_forall fun _ s₃ => ?_
  have hoperators := hg.operators arrow 0 s₃ (harrow.grade _) (by decide)
  refine yields_bind.mpr (hoperators.mono fun e s₄ he => ?_)
  have hdone : ∀ s', Yields (pure e) s' fun e _ => e.IsForeign := fun s' =>
    (yields_pure _).mpr (he.foreign harrow)
  refine yields_bind_of_forall fun isEnd s₅ => yields_ite (fun _ => hdone s₅) fun _ => ?_
  exact yields_bind_of_forall fun place s₆ => yields_bind_of_forall fun _ s₇ => hdone s₇

/-! ### Parentheses -/

include hg in
/-- All items in parentheses hold graded expressions. -/
theorem parenItems_yields (s : ReadState) :
    Yields (parenItems g) s fun r _ => ∀ i ∈ r.1, i.HoldsGraded .item := by
  unfold parenItems
  refine yields_bind_of_forall fun _ s₁ => yields_bind_of_forall fun empty s₂ => ?_
  refine yields_bind.mpr (Yields.mono (R := fun r _ => ∀ i ∈ r.1, i.HoldsGraded .item) ?_ ?_)
  · refine yields_iterate (I := fun x _ => ∀ i ∈ x.1, i.HoldsGraded .item) ?_ ?_
    · rintro ⟨acc, comma⟩ s₃ hacc
      refine yields_bind_of_forall fun closes s₄ => yields_bind_of_forall fun ends s₅ => ?_
      refine yields_ite (fun _ => (yields_pure _).mpr fun i hi => ?_) fun _ => ?_
      · exact hacc i (List.mem_reverse.mp hi)
      refine yields_bind_of_forall fun place s₆ => ?_
      refine yields_bind.mpr ((parenItem_yields hg s₆).mono fun i s₇ hi => ?_)
      -- The items so far, to which an arrow function may be added that starts with them.
      extract_lets acc' rest
      have hacc' : ∀ i ∈ acc', i.HoldsGraded .item := List.forall_mem_cons.mpr ⟨hi, hacc⟩
      refine yields_bind_of_forall fun hasArrow s₈ => ?_
      have hrest : ∀ acc s', (∀ i ∈ acc, i.HoldsGraded .item) →
          Yields (rest acc) s' (RoundOf (fun x _ => ∀ i ∈ x.1, i.HoldsGraded .item)
            fun r _ => ∀ i ∈ r.1, i.HoldsGraded .item) := by
        intro acc s' hacc
        refine yields_bind_of_forall fun closes s₉ => ?_
        refine yields_ite (fun _ => (yields_pure _).mpr hacc) fun _ => ?_
        refine yields_bind_of_forall fun _ s₁₀ => yields_bind_of_forall fun place s₁₁ => ?_
        exact (yields_pure _).mpr hacc
      have hsame : ∀ s', Yields (pure acc' >>= rest) s' (RoundOf
          (fun x _ => ∀ i ∈ x.1, i.HoldsGraded .item) fun r _ => ∀ i ∈ r.1, i.HoldsGraded .item) :=
        fun s' => yields_bind.mpr ((yields_pure _).mpr (hrest acc' s' hacc'))
      refine yields_ite (fun _ => ?_) fun _ => hsame s₈
      refine yields_ite (fun _ => ?_) fun _ => hsame s₈
      refine yields_bind_of_forall fun params s₉ => yields_bind_of_forall fun code s₁₀ => ?_
      refine yields_bind.mpr ((yields_pure _).mpr (hrest _ s₁₀ ?_))
      have harrow : Node.Grade 0 (arrowNode place params code (.list []) .absent) :=
        isForeign_arrowNode.grade 0
      exact List.forall_mem_cons.mpr ⟨harrow.holdsGraded, hacc'⟩
    · exact fun i hi => absurd hi List.not_mem_nil
  · rintro ⟨items, comma⟩ s₃ hitems
    exact yields_bind_of_forall fun _ s₄ => (yields_pure _).mpr hitems

/-- The items in parentheses as an expression, or as arguments. -/
theorem parenResult_yields {items : List Node} (place : Place) (isAsync : Bool) (s : ReadState)
    (hitems : ∀ i ∈ items, i.HoldsGraded .item)
    (hforms : ∀ i ∈ items, i.form = .item ∨ i.form = .spread) :
    Yields (parenResult place isAsync items) s fun e _ => e.Grade Term.accessTightness := by
  unfold parenResult
  refine yields_bind_of_forall fun _ s₁ => ?_
  refine yields_ite (fun _ => ?_) fun _ => ?_
  · have hname : Node.Grade Term.accessTightness (.leaf (.name "async") place) := Node.grade_leaf _
    exact (yields_pure _).mpr (hname.call hitems)
  refine yields_ite (fun _ => yields_bind.mpr yields_fail) fun hspread => ?_
  split
  · next e heq =>
    -- one part in all the items means that the parentheses hold one expression
    have hpart : e ∈ items.flatMap (·.parts) := by rw [heq]; exact List.mem_singleton_self e
    obtain ⟨i, hi, he⟩ := List.mem_flatMap.mp hpart
    have hform : i.form = .item := by
      refine (hforms i hi).resolve_right fun h => hspread (Or.inr ?_)
      exact List.any_eq_true.mpr ⟨i, hi, decide_eq_true h⟩
    exact (yields_pure _).mpr (hitems i hi hform e he).paren
  · have hsequence (es : List Node) (p : Place) : Node.IsForeign ⟨.sequence, p, es⟩ :=
      Node.isForeign_of_form rfl
    exact (yields_pure _).mpr ((hsequence _ _).grade 0).paren

include hg in
/-- **What starts with a parenthesis**, or with the word in front of it. -/
theorem parenthesized_yields (mayBeArrow : Bool) (asyncAt : Option Place) (s : ReadState) :
    Yields (parenthesized g mayBeArrow asyncAt) s fun e _ => e.Grade Term.accessTightness := by
  unfold parenthesized
  refine yields_bind_of_forall fun start s₁ => ?_
  extract_lets place isAsync
  refine yields_bind.mpr (yields_inScope (yields_inScope ((parenItems_yields hg _).mono ?_)))
  rintro ⟨items, comma⟩ s₂ hitems
  refine yields_bind_of_forall fun types s₃ => yields_bind_of_forall fun scope s₄ => ?_
  refine yields_bind_of_forall fun atColon s₅ => ?_
  extract_lets hasPattern rest
  have hrest : ∀ s', Yields (rest ()) s' fun e _ => e.Grade Term.accessTightness := by
    intro s'
    refine yields_bind_of_forall fun result s₆ => ?_
    refine yields_bind_of_forall fun atArrow s₇ => ?_
    refine yields_ite (fun _ => ?_) fun hplain => ?_
    · refine yields_bind_of_forall fun t s₈ => ?_
      refine yields_ite (fun _ => yields_bind.mpr yields_fail) fun _ => ?_
      refine yields_bind_of_forall fun _ s₉ => yields_bind_of_forall fun params s₁₀ => ?_
      refine yields_bind_of_forall fun code s₁₁ => ?_
      refine yields_ite (fun _ => ?_) fun _ => (yields_pure _).mpr (isForeign_arrowNode.grade _)
      exact (behindArrow_yields hg s₁₁ isForeign_arrowNode).mono fun e _ he => he.grade _
    · -- There is no pattern among the items, or an arrow would have to follow.
      refine parenResult_yields place isAsync s₇ hitems fun i hi => ?_
      by_contra hform
      rw [not_or] at hform
      refine hplain (Or.inl (List.any_eq_true.mpr ⟨i, hi, ?_⟩))
      simp only [ne_eq, hform.1, hform.2, not_false_eq_true, decide_true, Bool.and_self]
  refine yields_ite (fun _ => ?_) fun _ => hrest s₅
  refine yields_bind.mpr (yields_attempt (yields_silently ?_) (hrest s₅))
  exact (arrowInChoice_yields place isAsync items _).mono fun e _ he =>
    (yields_pure _).mpr (he.grade _)

/-! ### What stands for itself -/

/-- A function is no term. -/
theorem functionExpression_yields (s : ReadState) :
    Yields (functionExpression g) s fun e _ => e.IsForeign := by
  unfold functionExpression
  refine yields_bind_of_forall fun place s₁ => yields_bind_of_forall ?_
  rintro ⟨isAsync, isGenerator⟩ s₂
  refine yields_bind_of_forall fun name s₃ => yields_bind_of_forall fun fn s₄ => ?_
  split
  · exact yields_fail
  · exact (yields_pure _).mpr (Node.isForeign_of_form rfl)

/-- Nor is a class. -/
theorem classExpression_yields (s : ReadState) :
    Yields (classExpression g) s fun e _ => e.IsForeign := by
  unfold classExpression
  refine yields_bind_of_forall fun place s₁ => yields_bind_of_forall fun _ s₂ => ?_
  refine yields_bind_of_forall fun name s₃ => yields_bind_of_forall fun rest s₄ => ?_
  exact (yields_pure _).mpr (Node.isForeign_of_form rfl)

/-- Nor is a template. -/
theorem template_yields (s : ReadState) : Yields (template g) s fun e _ => e.IsForeign := by
  unfold template
  refine yields_bind_of_forall fun place s₁ => yields_bind_of_forall ?_
  rintro ⟨quasis, holes⟩ s₂
  refine yields_ite (fun _ => yields_bind.mpr (yields_failWith _ _)) fun _ => ?_
  exact (yields_pure _).mpr (Node.isForeign_of_form rfl)

/-- Nor is a regular expression. -/
theorem regex_yields (s : ReadState) : Yields regex s fun e _ => e.IsForeign := by
  unfold regex
  refine yields_bind_of_forall fun t s₁ => ?_
  split
  · exact yields_bind_of_forall fun _ s₂ => yields_throw _
  · next pattern flags _ =>
    refine yields_bind_of_forall fun _ s₂ => yields_bind_of_forall fun _ s₃ => ?_
    extract_lets result checked
    -- the faults in the flags are noted, the node is the same
    have hresult : ∀ s', Yields (result ()) s' fun e _ => e.IsForeign := fun s' =>
      (yields_pure _).mpr (Node.isForeign_of_form rfl)
    have hchecked : ∀ s', Yields (checked ()) s' fun e _ => e.IsForeign := by
      intro s'
      unfold checked
      split
      · exact yields_bind_of_forall fun _ s₄ => hresult s₄
      · exact hresult s'
    refine yields_ite (fun _ => ?_) fun _ => hchecked s₃
    exact yields_bind_of_forall fun _ s₄ => hchecked s₄

/-- A name that could have been a keyword can be accessed. -/
theorem asyncName_yields (place : Place) (s : ReadState) :
    Yields (asyncName g place) s fun e _ => e.Grade Term.accessTightness := by
  unfold asyncName
  extract_lets subject loopVariable
  have hsubject : subject.Grade Term.accessTightness := Node.grade_leaf _
  refine yields_bind_of_forall fun scope s₁ => yields_bind_of_forall fun atOf s₂ => ?_
  refine yields_bind_of_forall fun next s₃ => ?_
  -- a name in a loop head is the name and nothing else
  have hloop : ∀ s', Yields (loopVariable ()) s' fun e _ => e.Grade Term.accessTightness :=
    fun s' => (yields_pure _).mpr hsubject
  refine yields_ite (fun _ => ?_) fun _ => ?_
  · refine yields_ite (fun _ => hloop s₃) fun _ => ?_
    exact yields_bind_of_forall fun _ s₄ => hloop s₄
  refine yields_bind_of_forall ?_
  rintro ⟨p, name⟩ s₄
  refine yields_bind_of_forall fun types s₅ => yields_bind_of_forall fun atArrow s₆ => ?_
  refine yields_ite (fun _ => ?_) fun _ => ?_
  · refine yields_bind_of_forall fun type s₇ => (yields_pure _).mpr ?_
    exact Node.grade_of_form rfl _
  · exact (nameArrow_yields place true (p, name) s₆).mono fun e _ he => he.grade _

/-- What a name begins can be accessed: it is the name, or no term. -/
theorem namePrimary_yields (mayBeArrow : Bool) (s : ReadState) :
    Yields (namePrimary g mayBeArrow) s fun e _ => e.Grade Term.accessTightness := by
  unfold namePrimary
  refine yields_bind_of_forall ?_
  rintro ⟨place, text⟩ s₁
  dsimp -zeta only
  -- the name is shared by the ways of going on, so it is kept as it is
  extract_lets name arrow behind
  have hname : ∀ s', Yields (name ()) s' fun e _ => e.Grade Term.accessTightness := fun s' =>
    (yields_pure _).mpr (Node.grade_leaf _)
  have harrow : ∀ s', Yields (arrow ()) s' fun e _ => e.Grade Term.accessTightness := fun s' =>
    (nameArrow_yields place false (place, text) s').mono fun e _ he => he.grade _
  have hbehind : ∀ s', Yields (behind ()) s' fun e _ => e.Grade Term.accessTightness := by
    intro s'
    refine yields_bind_of_forall fun t s₂ => ?_
    refine yields_ite (fun _ => ?_) fun _ => hname s₂
    refine yields_ite (fun _ => asyncName_yields place s₂) fun _ => ?_
    refine yields_ite (fun _ => ?_) fun _ => hname s₂
    refine yields_ite (fun _ => ?_) fun _ => harrow s₂
    exact yields_bind_of_forall fun _ s₃ => harrow s₃
  refine yields_ite (fun _ => ?_) fun _ => hbehind s₁
  exact yields_bind_of_forall fun _ s₂ => hbehind s₂

include hg in
/-- So can what that keyword begins. -/
theorem asyncPrimary?_yields (mayBeArrow : Bool) (s : ReadState) :
    Yields (asyncPrimary? g mayBeArrow) s fun o _ => ∀ e ∈ o, e.Grade Term.accessTightness := by
  -- It gives an expression, or leaves the word to the caller.
  have hsome : ∀ e s', e.Grade Term.accessTightness →
      Yields (pure (some e) : Reading (Option Node)) s' fun o _ =>
        ∀ e ∈ o, e.Grade Term.accessTightness := by
    intro e s' he
    refine (yields_pure _).mpr fun e' he' => ?_
    cases he'
    exact he
  have hnone : ∀ s', Yields (pure none : Reading (Option Node)) s' fun o _ =>
      ∀ e ∈ o, e.Grade Term.accessTightness :=
    fun s' => (yields_pure _).mpr fun e he => nomatch he
  unfold asyncPrimary?
  refine yields_bind_of_forall fun t s₁ => yields_bind_of_forall fun atFn s₂ => ?_
  refine yields_ite (fun _ => ?_) fun _ => ?_
  · refine yields_bind.mpr ((functionExpression_yields s₂).mono fun e s₃ he => ?_)
    exact hsome e s₃ (he.grade _)
  refine yields_ite (fun _ => hnone s₂) fun _ => ?_
  refine yields_bind_of_forall fun next s₃ => yields_bind_of_forall fun types s₄ => ?_
  -- Behind the word: a generic arrow if there is one, else arguments in parentheses.
  extract_lets arguments
  have harguments : ∀ s', Yields (arguments ()) s' fun o _ =>
      ∀ e ∈ o, e.Grade Term.accessTightness := by
    intro s'
    refine yields_ite (fun _ => ?_) fun _ => hnone s'
    refine yields_bind_of_forall fun _ s₅ => yields_bind.mpr ?_
    exact (parenthesized_yields hg true (some t.place) s₅).mono fun e s₆ he => hsome e s₆ he
  refine yields_ite (fun _ => ?_) fun _ => harguments s₄
  refine yields_bind.mpr (yields_attempt (yields_silently ?_) (harguments s₄))
  exact (asyncGenericArrow_yields _).mono fun e _ he => hsome e _ (he.grade _)

include hg in
/-- **What stands for itself is no operator.** -/
theorem primary_yields (s : ReadState) :
    Yields (primary g) s fun e _ => e.Grade Term.accessTightness := by
  unfold primary
  refine yields_bind_of_forall fun t s₁ => yields_bind_of_forall fun s' s₂ => ?_
  extract_lets mayBeArrow leaf
  -- Names, numbers, texts and the words for values are leaves.
  have hleaf : ∀ form, Yields (leaf form) s₂ fun e _ => e.Grade Term.accessTightness := fun form =>
    yields_bind_of_forall fun _ s₃ => (yields_pure _).mpr (Node.grade_leaf form)
  split
  case h_1 | h_2 | h_3 | h_5 | h_6 | h_7 | h_8 => exact hleaf _
  case h_4 =>
    refine yields_bind.mpr ((hleaf _).mono fun n s₃ hn => yields_bind_of_forall fun atIn s₄ => ?_)
    refine yields_ite (fun _ => (yields_pure _).mpr hn) fun _ => yields_bind.mpr yields_fail
  case h_9 => exact (functionExpression_yields s₂).mono fun e _ he => he.grade _
  case h_10 => exact (classExpression_yields s₂).mono fun e _ he => he.grade _
  -- A word: it may begin an asynchronous function, and else it is a name.
  case h_11 text _ _ _ _ _ _ _ =>
    extract_lets name
    have hname : ∀ s', Yields (name ()) s' fun e _ => e.Grade Term.accessTightness := fun s' =>
      yields_ite (fun _ => namePrimary_yields mayBeArrow s') fun _ => yields_fail
    refine yields_ite (fun _ => ?_) fun _ => hname s₂
    refine yields_bind.mpr ((asyncPrimary?_yields hg mayBeArrow s₂).mono fun o s₃ ho => ?_)
    cases o with
    | some n => exact (yields_pure _).mpr (ho n rfl)
    | none => exact hname s₃
  case h_12 => exact parenthesized_yields hg mayBeArrow none s₂
  case h_13 =>
    refine yields_bind_of_forall fun _ s₃ => yields_bind_of_forall fun items s₄ => ?_
    exact (yields_pure _).mpr (Node.grade_of_form rfl _)
  case h_14 =>
    refine yields_bind_of_forall fun _ s₃ => yields_bind_of_forall fun items s₄ => ?_
    exact (yields_pure _).mpr (Node.grade_of_form rfl _)
  case h_15 => exact (template_yields s₂).mono fun e _ he => he.grade _
  case h_16 | h_17 => exact (regex_yields s₂).mono fun e _ he => he.grade _
  case h_18 => exact yields_fail

end Rules

end JsxWidgets.Syntax
