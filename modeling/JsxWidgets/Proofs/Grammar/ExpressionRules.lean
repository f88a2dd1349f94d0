import JsxWidgets.Proofs.Grammar.OperandRules
import JsxWidgets.Syntax.Grammar.Expressions

/-!
# What the rules for expressions give

Where markup stands for an expression it is held by one that says so. All other expressions are made
of expressions, statements, patterns and types.

That the word for the current object is no name of a variable is seen where a name is read, and only
there does the state matter: the word is the one that stands next, and words that do not refer to
variables have been told apart before (`primary_formed`).
-/

namespace JsxWidgets.Syntax

open Reading Node

section Rules

variable {g : Rules} (hg : (g ()).IsFormed)
include hg

/-! ### Arrow functions -/

/-- The body of an arrow function is a block or an expression. -/
theorem arrowBody_formed (isAsync : Bool) (params : List Node) :
    (arrowBody g isAsync params).Gives Plain := by
  refine .inScope (.step fun _ => .ite ?_ hg.assignment)
  exact .bind (body_formed hg) fun code hcode => .step fun _ => .pure hcode

omit hg in
/-- An arrow function is an ordinary construct with four parts. -/
theorem plain_arrowNode {place : Place} {params : List Node} {code generic result : Node}
    (hparams : ∀ n ∈ params, n.Plain) (hcode : code.Plain) (hgeneric : generic.Plain)
    (hresult : result.Plain) : (arrowNode place params code generic result).Plain := by
  simp [arrowNode, plain_list_of_parts hparams, hcode, hgeneric, hresult]

/-- An arrow function with a name as its only parameter. -/
theorem nameArrow_formed (place : Place) (isAsync : Bool) (name : Place × String) :
    (nameArrow g place isAsync name).Gives Plain := by
  refine .step fun _ => .bind (arrowBody_formed hg _ _) fun code hcode => .pure ?_
  exact plain_arrowNode (by simp) hcode (by simp) plain_absent

/-- An arrow function with type parameters, behind the word `async`. -/
theorem asyncGenericArrow_formed : (asyncGenericArrow g).Gives Plain := by
  refine .step fun place => .step fun _ => ?_
  refine .bind (typeParameters?_formed hg _) fun generic hgeneric => .step fun _ => ?_
  refine .bind (.bracketed (formalParameters_formed hg)) fun params hparams => ?_
  refine .step fun _ => .bind (resultAnnotation_formed hg) fun result hresult => .step fun _ => ?_
  refine .bind (arrowBody_formed hg _ _) fun code hcode => .pure ?_
  exact plain_arrowNode hparams hcode hgeneric hresult

/-! ### Items in parentheses -/

/-- An item in parentheses, as an expression. Where types may be stated, what starts with a name is
read with its operators first and then with what is assigned to it. -/
theorem parenExpression_formed : (parenExpression g).Gives Plain := by
  refine .step fun t => .step fun _ => .step fun _ => ?_
  refine .ite (.ite (.step fun _ => ?_) ?_) (item_formed hg)
  · exact .bind (binaryRule_formed hg) fun e he => .pure (by simp [he])
  · refine .bind (binaryRule_formed hg) fun e he => ?_
    exact .bind (assignmentRest_formed hg he) fun e he => .pure (by simp [he])

/-- An item with a question mark behind it: the mark starts a choice, or says that a parameter may
be missing. -/
theorem questionBehind_formed {arg : Node} (harg : arg.Plain) :
    (questionBehind g arg).Gives fun x => x.1.Plain := by
  refine .step fun _ => .step fun _ => .ite (.pure harg) (.step fun _ => ?_)
  extract_lets rest marked
  -- the question mark is either the choice's or marks the parameter
  have hrest : ∀ u, (rest u).Gives fun x => x.1.Plain := by
    intro _
    unfold rest
    split
    · refine .step fun _ => .bind (choiceRest_formed hg ?_) fun e he => .pure (by simp [he])
      exact harg.parts _ List.mem_cons_self
    · exact .pure harg
  have hmarked : ∀ u, (marked u).Gives fun x => x.1.Plain := by
    intro _
    unfold marked
    split
    · exact .pure harg
    · exact .step hrest
  exact .ite (.step fun _ => .whenAt hmarked) (hrest ())

/-- An item with a type or a mark behind it is a parameter, so it is read again as a pattern. -/
theorem typedItem_formed {arg : Node} (harg : arg.Plain) : (typedItem g arg).Gives Plain := by
  unfold typedItem
  extract_lets rest
  have hrest : ∀ pat : Node, pat.Plain → (rest pat).Gives Plain := by
    refine fun pat hpat => .bind (typeAnnotation_formed hg) fun type htype => .step fun _ => ?_
    refine .ite (.bind hg.assignment fun value hvalue => .pure ?_) (.pure (hpat.withType htype))
    simp [hpat.withType htype, hvalue]
  split
  · refine .bind (rereadAs_formed _ (harg.parts _ List.mem_cons_self)) fun e he => ?_
    exact .bind (.pure (by simp [he])) hrest
  · exact .bind (rereadAs_formed _ (harg.parts _ List.mem_cons_self)) hrest
  · exact .bind .fail hrest

/-- An item in parentheses is an expression or already a parameter. -/
theorem parenItem_formed : (parenItem g).Gives Plain := by
  refine .step fun place => .step fun _ => .step fun isField => ?_
  refine .bind (parenExpression_formed hg) fun e he => ?_
  refine .bind (questionBehind_formed hg he) fun ⟨arg, isOptional⟩ harg => ?_
  refine .step fun _ => .step fun _ => ?_
  refine .either (typedItem_formed hg harg) (.pure harg) fun n hn => .when fun _ => .pure hn

/-- The items in parentheses. If an arrow stands behind one of them, an arrow function with all
items so far becomes one more item. -/
theorem parenItems_formed : (parenItems g).Gives fun x => ∀ n ∈ x.1, n.Plain := by
  refine .step fun _ => .step fun empty => .bind (P := fun x => ∀ n ∈ x.1, Plain n) ?_ ?_
  · refine .iterate (fun x => ∀ n ∈ x.1, Plain n) (fun n hn => nomatch hn) ?_
    rintro ⟨acc, comma⟩ hacc
    refine .step fun _ => .step fun _ => .ite (.done (forall_mem_reverse hacc)) ?_
    refine .step fun place => .bind (parenItem_formed hg) fun n hn => .step fun _ => ?_
    have hmore : ∀ b ∈ n :: acc, Plain b := List.forall_mem_cons.mpr ⟨hn, hacc⟩
    extract_lets rest
    have hrest : ∀ acc, (∀ n ∈ acc, Plain n) → (rest acc).Gives
        (Gives.OfRound (fun x => ∀ n ∈ x.1, Plain n) fun x => ∀ n ∈ x.1, Plain n) :=
      fun acc hacc => .step fun _ => .ite (.more hacc) (.step fun _ => .step fun _ => .more hacc)
    have hkept : Gives (do rest (← pure (n :: acc))) _ := .bind (.pure hmore) hrest
    refine .ite (.ite ?_ hkept) hkept
    -- All items so far turn out to be the parameters of an arrow function.
    refine .bind (parametersOf_formed (forall_mem_reverse hmore) none) fun params hparams => ?_
    refine .bind (arrowBody_formed hg _ _) fun code hcode => .bind (.pure ?_) hrest
    have harrow : (arrowNode place params code (list []) absent).Plain :=
      plain_arrowNode hparams hcode (by simp) plain_absent
    exact List.forall_mem_cons.mpr ⟨by simp [harrow], hmore⟩
  · exact fun ⟨items, comma⟩ hitems => .step fun _ => .pure hitems

/-! ### Parentheses -/

/-- The type of a result that is followed by an arrow, or a missing part. -/
theorem arrowResult?_formed : (arrowResult? g).Gives Plain := by
  refine .step fun _ => .step fun _ => .step fun _ => .ite ?_ (.pure plain_absent)
  refine .bind (.attempt (.silently ?_)) fun found hfound => .pure (plain_ofOption hfound)
  refine .bind (resultAnnotation_formed hg) fun type htype => ?_
  exact .step fun _ => .whenNot fun _ => .pure htype

/-- A whole arrow function in a branch of a choice. -/
theorem arrowInChoice_formed (place : Place) (isAsync : Bool) {items : List Node}
    (hitems : ∀ n ∈ items, n.Plain) : (arrowInChoice g place isAsync items).Gives Plain := by
  refine .bind (resultAnnotation_formed hg) fun result hresult => .step fun _ => ?_
  refine .bind (parametersOf_formed hitems _) fun params hparams => ?_
  refine .bind (arrowBody_formed hg _ _) fun code hcode => .step fun _ => .step fun _ => ?_
  exact .when fun _ => .pure (plain_arrowNode hparams hcode (by simp) hresult)

/-- An operator behind an arrow function is reported, and goes on with it as its operand. -/
theorem behindArrow_formed {arrow : Node} (harrow : arrow.Plain) :
    (behindArrow g arrow).Gives Plain := by
  refine .step fun _ => .ite (.step fun _ => .step fun _ => ?_) (.pure harrow)
  refine .bind (hg.operators arrow 0 harrow) fun e he => .step fun _ => .ite (.pure he) ?_
  exact .step fun _ => .step fun _ => .pure he

omit hg in
/-- Items in parentheses that are no parameters: the arguments of a call, one expression, or a
sequence. The items themselves are taken apart. -/
theorem parenResult_formed (place : Place) (isAsync : Bool) {items : List Node}
    (hitems : ∀ n ∈ items, n.Plain) : (parenResult place isAsync items).Gives Plain := by
  refine .step fun _ => .ite (.pure ?_) (.when fun _ => ?_)
  · simp [plain_list_of_parts hitems]
  · have hparts : ∀ n ∈ items.flatMap (·.parts), n.WellFormed := fun n hn => by
      obtain ⟨item, hitem, hpart⟩ := List.mem_flatMap.mp hn
      exact (hitems item hitem).parts n hpart
    beta_reduce
    split
    · next e heq => exact .pure (by simpa using hparts e (heq ▸ List.mem_cons_self))
    · exact .pure (by simpa using hparts)

/-- What starts with a parenthesis. Items are read once and become parameters only if an arrow
follows. -/
theorem parenthesized_formed (mayBeArrow : Bool) (asyncAt : Option Place) :
    (parenthesized g mayBeArrow asyncAt).Gives Plain := by
  refine .step fun here => .bind (.inScope (.bracketed (parenItems_formed hg))) ?_
  rintro ⟨items, comma⟩ hitems
  refine .step fun _ => .step fun _ => .step fun _ => ?_
  extract_lets hasPattern rest
  -- behind an arrow the items are parameters, else they are expressions
  have hrest : ∀ u, (rest u).Gives Plain := by
    refine fun _ => .bind (arrowResult?_formed hg) fun result hresult => .step fun _ => ?_
    refine .ite (.step fun _ => .when fun _ => .step fun _ => ?_) (parenResult_formed _ _ hitems)
    refine .bind (parametersOf_formed hitems comma) fun params hparams => ?_
    refine .bind (arrowBody_formed hg _ _) fun code hcode => ?_
    have harrow : (arrowNode (asyncAt.getD here) params code (list []) result).Plain :=
      plain_arrowNode hparams hcode (by simp) hresult
    exact .ite (behindArrow_formed hg harrow) (.pure harrow)
  refine .ite (.bind (.attempt (.silently (arrowInChoice_formed hg _ _ hitems))) ?_) (hrest ())
  -- in the branch of a choice the arrow is only tried
  intro found hfound
  cases found with
  | some n => exact .pure (hfound n rfl)
  | none => exact hrest ()

/-! ### What stands for itself -/

/-- The word `async` in front of a name is a variable or starts an arrow function. -/
theorem asyncName_formed (place : Place) : (asyncName g place).Gives Plain := by
  unfold asyncName
  extract_lets subject done
  have hdone : ∀ u, (done u).Gives Plain := fun _ => .pure (plain_leaf rfl)
  refine .step fun s => .step fun _ => .step fun _ => .ite (.ite (hdone ()) (.step hdone)) ?_
  refine .step fun ⟨p, name⟩ => .step fun _ => .step fun _ => .ite ?_ (nameArrow_formed hg _ _ _)
  exact .bind hg.type fun type htype => .pure (by simp [subject, htype])

omit hg in
/-- An identifier is the word that stands next. -/
theorem identifier_yields (s : ReadState) :
    Yields identifier s fun x _ => s.token.kind = .word x.2 := by
  refine yields_bind.mpr (yields_peek.mpr ?_)
  split
  · next text hword =>
    have hrest : Gives (pure (s.token.place, text)) fun x => s.token.kind = .word x.2 :=
      .pure hword
    refine Gives.step (fun _ => .step fun _ => .when fun _ => .when fun _ => .step fun _ => ?_) s
    exact .when fun _ => .when fun _ => hrest
  · exact yields_failName

/-- A name is the word that stands next, and that is not the word for the current object. -/
theorem namePrimary_formed (mayBeArrow : Bool) {s : ReadState} {text : String}
    (hword : s.token.kind = .word text) (htext : text ≠ "this") :
    Yields (namePrimary g mayBeArrow) s fun n _ => n.Plain := by
  refine yields_bind.mpr ((identifier_yields s).mono ?_)
  rintro ⟨place, name⟩ s' hname
  obtain rfl : text = name := TokenKind.word.inj (hword.symm.trans hname)
  refine Gives.when (fun _ => .step fun t => ?_) s'
  extract_lets done
  have hdone : ∀ u, (done u).Gives Plain := fun _ => .pure (plain_leaf (decide_eq_true htext))
  refine .ite (.ite (asyncName_formed hg place) (.ite (.when fun _ => ?_) (hdone ()))) (hdone ())
  exact nameArrow_formed hg _ _ _

omit hg in
/-- Looking for a function does not pass anything. -/
theorem yields_atFunction {s : ReadState} {Q : Bool → ReadState → Prop} (h : ∀ b, Q b s) :
    Yields atFunction s Q := by
  refine yields_bind.mpr (yields_atWord?.mpr (yields_ite (fun _ => ?_) fun _ => ?_))
  · exact (yields_pure true).mpr (h true)
  · refine yields_bind.mpr (yields_bind.mpr (yields_peek.mpr ((yields_pure _).mpr ?_)))
    exact yields_bind.mpr (yields_atWord?.mpr ((yields_pure _).mpr (h _)))

/-- If nothing is found behind the word `async`, it still stands next. -/
theorem asyncPrimary?_formed (mayBeArrow : Bool) (s : ReadState) :
    Yields (asyncPrimary? g mayBeArrow) s
      fun o s' => (∀ n ∈ o, n.Plain) ∧ (o = none → s' = s) := by
  have hfound : ∀ {p : Reading Node}, p.Gives Plain → ∀ s', Yields (do return some (← p)) s'
      fun o s'' => (∀ n ∈ o, n.Plain) ∧ (o = none → s'' = s) := fun hp s' =>
    yields_bind.mpr ((hp s').mono fun n _ hn => (yields_pure _).mpr ⟨by simpa using hn, nofun⟩)
  -- the rule gives nothing only where nothing was read
  have hnone : Yields (pure none) s fun o s' => (∀ n ∈ o, Plain n) ∧ (o = none → s' = s) :=
    (yields_pure _).mpr ⟨by simp, fun _ => rfl⟩
  refine yields_bind.mpr (yields_peek.mpr (yields_bind.mpr (yields_atFunction fun _ => ?_)))
  refine yields_ite (fun _ => hfound (functionExpression_formed hg) s) fun _ => ?_
  refine yields_ite (fun _ => hnone) fun _ => ?_
  refine yields_bind.mpr (yields_bind.mpr (yields_peek.mpr ((yields_pure _).mpr ?_)))
  refine yields_bind.mpr (yields_hasTypes.mpr ?_)
  extract_lets rest
  have hrest : Yields (rest ()) s fun o s' => (∀ n ∈ o, n.Plain) ∧ (o = none → s' = s) :=
    yields_ite (fun _ => yields_bind_of_forall fun _ s' => hfound (parenthesized_formed hg _ _) s')
      fun _ => hnone
  refine yields_ite (fun _ => yields_bind.mpr (yields_attempt ?_ hrest)) fun _ => hrest
  refine (Gives.silently (asyncGenericArrow_formed hg) s).mono fun n s' hn => ?_
  exact (yields_pure _).mpr ⟨by simpa using hn, nofun⟩

/-- **An expression that stands for itself** is well-formed. The word that a name is made of is the
one that stands next at the start, and for the current object there is a case of its own. -/
theorem primary_formed : (primary g).Gives Plain := by
  intro s
  refine yields_bind.mpr (yields_peek.mpr (yields_bind.mpr (yields_get.mpr ?_)))
  extract_lets mayBeArrow leaf
  have hleaf : ∀ form, form.isOrdinary = true → (leaf form).Gives Plain := fun form hform =>
    .step fun _ => .pure (plain_leaf hform)
  split
  · exact hleaf _ rfl s
  · exact hleaf _ rfl s
  · exact hleaf _ rfl s
  · refine Gives.bind (hleaf _ rfl) (fun n hn => .step fun _ => .ite (.pure hn) ?_) s
    exact .step fun _ => .pure hn
  · exact hleaf _ rfl s
  · exact hleaf _ rfl s
  · exact hleaf _ rfl s
  · exact hleaf _ rfl s
  · exact functionExpression_formed hg s
  · exact classExpression_formed hg s
  · next text hthis _ _ _ _ _ hword =>
    extract_lets rest
    -- Whatever the word is, it still stands next when it is read as a name.
    have hrest : ∀ u, Yields (rest u) s fun n _ => n.Plain := fun _ =>
      yields_ite (fun _ => namePrimary_formed hg _ hword hthis) fun _ => yields_fail
    refine yields_ite (fun _ => yields_bind.mpr ((asyncPrimary?_formed hg _ s).mono ?_))
      fun _ => hrest ()
    rintro (_ | n) s' ⟨hfound, hstate⟩
    · rw [hstate rfl]
      exact hrest ()
    · exact (yields_pure n).mpr (hfound n rfl)
  · exact parenthesized_formed hg _ _ s
  · have hitems := arrayItems_formed hg
    refine Gives.step (fun _ => .bind (.bracketed (hitems _)) fun items hitems => ?_) s
    exact .pure (plain_of_parts rfl hitems)
  · refine Gives.step (fun _ => .bind (.bracketed (objectProperties_formed hg _)) ?_) s
    exact fun properties h => .pure (plain_of_parts rfl h)
  · exact template_formed hg s
  · exact regex_formed s
  · exact regex_formed s
  · exact yields_fail

/-! ### Accesses and calls -/

/-- The arguments of a call, in a row. -/
theorem arguments_formed : (arguments g).Gives Plain := by
  refine .step fun _ => .step fun _ => .choose fun empty => ?_
  have hdone : ∀ args : List Node, (∀ n ∈ args, n.Plain) → Gives (pure (list args)) Plain :=
    fun args hargs => .pure (plain_list_of_parts hargs)
  refine .ite (.step fun _ => .bind (.pure (by simp)) hdone) ?_
  exact .bind (.bracketed (gives_commaList (item_formed hg))) hdone

omit hg in
theorem memberName_formed : memberName.Gives Plain := by
  refine .step fun t => ?_
  split
  · exact .step fun _ => .pure (plain_leaf rfl)
  · exact .step fun _ => .pure (plain_leaf rfl)
  · exact .failName

/-- A member that is looked up by a value. -/
theorem memberInBrackets_formed : (memberInBrackets g).Gives Plain := by
  refine .step fun place => .step fun _ => .bind (.bracketed hg.expression) fun e he => ?_
  exact .step fun _ => .pure (by simp [he])

/-- The type arguments of a call, if what is behind them can follow type arguments. -/
theorem callTypeArguments_formed :
    (callTypeArguments g).Gives fun o => ∀ n ∈ o, n.Plain := by
  refine .step fun _ => .step fun _ => .step fun _ => ?_
  refine .ite (.attempt (.silently ?_)) (.pure (by simp))
  refine .bind (typeArguments_formed hg) fun args hargs => ?_
  exact .step fun _ => .whenNot fun _ => .pure hargs

/-- A template that is handed to a function. -/
theorem taggedTemplate_formed {e types : Node} (he : e.Plain) (htypes : types.Plain) :
    (taggedTemplate g e types).Gives Plain := by
  refine .bind (templateParts_formed hg) fun ⟨quasis, holes⟩ hholes => .when fun _ => .pure ?_
  simp [he, htypes, plain_list_of_parts hholes]

omit hg in
/-- An access to a member has the same parts whether it may be passed over or not. -/
theorem plain_accessNode {forced : Bool} {e selector : Node} (he : e.Plain)
    (hselector : selector.Plain) : (accessNode forced e selector).Plain := by
  unfold accessNode
  split <;> simp [he, hselector]

omit hg in
/-- A call has the same parts whether it may be passed over or not. -/
theorem plain_callNode {forced : Bool} {e args types : Node} (he : e.Plain) (hargs : args.Plain)
    (htypes : types.Plain) : (callNode forced e args types).Plain := by
  unfold callNode
  split <;> simp [he, hargs, htypes]

/-- An access or a call that may be passed over. -/
theorem optionalAccess_formed {e : Node} (he : e.Plain) : (optionalAccess g e).Gives Plain := by
  refine .step fun _ => .ite ?_ (.step fun _ => .ite ?_ ?_)
  · exact .bind (memberInBrackets_formed hg) fun n hn => .pure (plain_accessNode he hn)
  · exact .bind (arguments_formed hg) fun args hargs => .pure (plain_callNode he hargs (by simp))
  · refine .bind (callTypeArguments_formed hg) fun found hfound => ?_
    cases found with
    | some types =>
      refine .bind (arguments_formed hg) fun args hargs => .pure ?_
      exact plain_callNode he hargs (hfound types rfl)
    | none => exact .bind memberName_formed fun n hn => .pure (plain_accessNode he hn)

/-- What follows type arguments: a call, a template, or nothing, in which case the expression is
made more special. -/
theorem typedAccess?_formed {e : Node} (he : e.Plain) (called : Bool) :
    (typedAccess? g e called).Gives fun o => ∀ x ∈ o, x.1.Plain := by
  unfold typedAccess?
  extract_lets rest
  -- the reading behind the type arguments serves both the trial and the firm one
  have hrest : ∀ types : Node, types.Plain → (rest types).Gives fun x => x.1.Plain := by
    intro types htypes
    refine .step fun _ => .ite ?_ (.step fun _ => .ite ?_ ?_)
    · exact .bind (arguments_formed hg) fun args hargs => .pure (plain_callNode he hargs htypes)
    · exact .bind (.silently (taggedTemplate_formed hg he htypes)) fun n hn => .pure hn
    · exact .pure (by simp [he, htypes])
  refine .ite (.attempt (.silently ?_)) ?_
  · refine .bind (callTypeArguments_formed hg) fun found hfound => ?_
    cases found with
    | some types => exact hrest types (hfound types rfl)
    | none => exact .fail
  · refine .bind (callTypeArguments_formed hg) fun found hfound => ?_
    cases found with
    | some types =>
      exact .bind (hrest types (hfound types rfl)) fun x hx => .pure (by simpa using hx)
    | none => exact .pure (by simp)

/-- The accesses and calls behind an expression, from left to right. Each round puts the expression
so far into a new node. -/
theorem accesses_formed (mayCall : Bool) {first : Node} (hfirst : first.Plain) (called : Bool) :
    (accesses g mayCall first called).Gives Plain := by
  refine .iterate (fun x => x.1.Plain) hfirst ?_
  -- what is gathered so far is plain; each access is built around it
  rintro ⟨e, called⟩ he
  refine .step fun t => ?_
  split
  · refine .step fun _ => .bind memberName_formed fun n hn => .more ?_
    exact plain_accessNode he hn
  · exact .bind (memberInBrackets_formed hg) fun n hn => .more (plain_accessNode he hn)
  · refine .whenNot fun _ => .step fun _ => ?_
    exact .bind (optionalAccess_formed hg he) fun n hn => .more hn
  · refine .ite (.bind (arguments_formed hg) fun args hargs => .more ?_) (.done he)
    exact plain_callNode he hargs (by simp)
  · exact .bind (taggedTemplate_formed hg he (by simp)) fun n hn => .more hn
  · exact .step fun _ => .ite (.step fun _ => .more (by simp [he])) (.done he)
  · refine .ite (.done he) (.bind (typedAccess?_formed hg he called) fun found hfound => ?_)
    cases found with
    | some next => exact .more (hfound next rfl)
    | none => exact .done he
  · refine .ite (.done he) (.bind (typedAccess?_formed hg he called) fun found hfound => ?_)
    cases found with
    | some next => exact .more (hfound next rfl)
    | none => exact .done he
  · exact .done he

/-- A call of the constructor of the parent, or one of its members. -/
theorem parentAccess_formed (place : Place) : (parentAccess g place).Gives Plain := by
  refine .step fun _ => .ite (.bind (arguments_formed hg) fun args hargs => .pure ?_) ?_
  · simp [hargs]
  refine .step fun _ => .whenNot fun _ => .step fun _ => .ite (.step fun ⟨p, text⟩ => .pure ?_) ?_
  · simp
  · exact .bind (memberInBrackets_formed hg) fun n hn => .pure (by simp [hn])

/-- An import as an expression, or the data of the module. -/
theorem importAccess_formed (place : Place) : (importAccess g place).Gives Plain := by
  refine .step fun _ => .ite (.step fun _ => .pure (plain_leaf rfl)) (.step fun _ => ?_)
  refine .bind (P := fun args => ∀ n ∈ args, Plain n) (.bracketed ?_) fun args hargs => .pure ?_
  · refine .iterate (fun acc => ∀ n ∈ acc, Plain n) (fun n hn => nomatch hn) fun acc hacc => ?_
    refine .step fun _ => .ite (.done (forall_mem_reverse hacc)) ?_
    refine .bind (item_formed hg) fun n hn => .step fun _ => ?_
    have hmore : ∀ b ∈ n :: acc, Plain b := List.forall_mem_cons.mpr ⟨hn, hacc⟩
    refine .ite (.step fun _ => .step fun _ => .when fun _ => .more hmore) ?_
    exact .step fun _ => .done (forall_mem_reverse hmore)
  · simp [plain_list_of_parts hargs]

/-- What accesses and calls start from. -/
theorem accessRoot_formed : (accessRoot g).Gives fun x => x.1.Plain := by
  refine .step fun place => .step fun _ => .ite ?_ (.step fun _ => .ite ?_ ?_)
  · exact .bind hg.construction fun n hn => .pure hn
  · exact .bind (parentAccess_formed hg _) fun n hn => .pure hn
  refine .step fun _ => .ite ?_ ?_
  · exact .bind (importAccess_formed hg _) fun n hn => .pure hn
  · exact .bind (primary_formed hg) fun n hn => .pure hn

/-- A construction, whose arguments may be missing. -/
theorem constructionRule_formed : (constructionRule g).Gives Plain := by
  refine .step fun place => .step fun _ => .step fun _ => .ite ?_ ?_
  · exact .step fun _ => .step fun s => .whenNot fun _ => .pure (plain_leaf rfl)
  refine .step fun _ => .when fun _ => .bind (accessRoot_formed hg) fun ⟨root, _⟩ hroot => ?_
  refine .ite (.pure hroot) (.bind (accesses_formed hg _ hroot _) fun callee hcallee => ?_)
  refine .bind (callTypeArguments_formed hg) fun types htypes => .step fun _ => ?_
  refine .either (arguments_formed hg) (.pure (by simp)) fun args hargs => .pure ?_
  cases types with
  | some types => simp [hcallee, hargs, htypes types rfl]
  | none => simp [hcallee, hargs]

/-- Markup, or an expression with its accesses and calls. Markup is held by an expression that says
so. -/
theorem accessRule_formed : (accessRule g).Gives Plain := by
  refine .step fun _ => .step fun _ => .when fun _ => .step fun _ => .step fun _ => .ite ?_ ?_
  · exact .step fun place => .bind (hg.markup _) fun n hn => .pure (by simp [hn])
  · refine .bind (accessRoot_formed hg) fun ⟨root, called⟩ hroot => .ite (.pure hroot) ?_
    exact accesses_formed hg true hroot called

/-! ### Unary operators -/

/-- What is waited for, or the word for it as the name of a variable. -/
theorem awaited_formed (place : Place) : (awaited g place).Gives Plain := by
  refine .step fun _ => .when fun _ => .step fun s => .step fun _ => .step fun _ => ?_
  refine .ite (.step fun _ => .pure (plain_leaf rfl)) (.when fun _ => .when fun _ => ?_)
  exact .bind hg.unary fun e he => .pure (by simp [he])

/-- An operator in front of its operand. An operand that cannot be read leaves a node that is no
expression. -/
theorem prefixed_formed (op : UnaryOp) : (prefixed g op).Gives Plain := by
  refine .step fun place => .step fun _ => .step fun before => .bind (.tolerate hg.unary) ?_
  intro read hread
  extract_lets rest
  have hrest : ∀ e : Node, e.Plain → (rest e).Gives Plain := fun e he =>
    .when fun _ => .pure (by simp [he])
  cases read with
  | ok e => exact .bind (.pure (hread e rfl)) hrest
  | error f => exact .step fun _ => .bind (.pure (plain_leaf rfl)) hrest

/-- An expression behind a type in angle brackets. -/
theorem typeAssertion_formed : (typeAssertion g).Gives Plain := by
  refine .step fun place => .step fun _ => .step fun _ => .ite (.step fun _ => ?_) ?_
  · exact .bind hg.unary fun e he => .pure (by simp [he])
  · refine .bind hg.type fun type htype => .step fun _ => .bind hg.unary fun e he => .pure ?_
    simp [he, htype]

/-- An expression with a step up or down behind it. -/
theorem postfixed_formed : (postfixed g).Gives Plain := by
  refine .bind (accessRule_formed hg) fun e he => .ite (.pure he) (.step fun after => ?_)
  split
  · exact .ite (.pure he) (.step fun _ => .step fun _ => .pure (by simp [he]))
  · exact .pure he

/-- **An operand** is well-formed. Which rule reads it is told by the token that stands next. -/
theorem unaryRule_formed : (unaryRule g).Gives Plain := by
  refine .step fun t => ?_
  split
  · exact prefixed_formed hg _
  · exact .step fun _ => .bind hg.unary fun e he => .step fun _ => .pure (by simp [he])
  · refine .step fun _ => .ite (awaited_formed hg _) ?_
    refine .step fun _ => .step fun _ => .step fun _ => ?_
    exact .ite (typeAssertion_formed hg) (postfixed_formed hg)

/-! ### Assignments and sequences -/

/-- What a generator hands out, which may be missing. -/
theorem yielding_formed : (yielding g).Gives Plain := by
  refine .step fun place => .step fun _ => .step fun s => .when fun _ => ?_
  refine .step fun _ => .step fun _ => .ite (.pure (by simp)) (.step fun _ => ?_)
  exact .bind hg.assignment fun e he => .pure (by simp [he])

/-- An assignment. What an operator has put together is no target, so nothing is read behind it. -/
theorem plainAssignment_formed : (plainAssignment g).Gives Plain := by
  refine .step fun _ => .step fun _ => .ite (yielding_formed hg) (.step fun t => .step fun _ => ?_)
  refine .bind (choiceRule_formed hg) fun left hleft => ?_
  split
  · exact .pure hleft
  · exact .pure hleft
  · exact .pure hleft
  · exact .pure hleft
  · exact .pure hleft
  · exact assignmentRest_formed hg hleft

/-- The type parameters of an arrow function are put into it when it has been read without them. -/
theorem genericArrow_formed : (genericArrow g).Gives Plain := by
  refine .step fun place => .step fun _ => .whenNot fun _ => .inScope ?_
  refine .bind (typeParameters?_formed hg _) fun generic hgeneric => ?_
  refine .bind (plainAssignment_formed hg) fun arrow harrow => ?_
  split
  · next params code _ result =>
    obtain ⟨hparams, hcode, -, hresult⟩ : params.WellFormed ∧ code.WellFormed ∧ _ ∧
        result.WellFormed := by simpa using harrow
    exact .pure (by simp [hgeneric, hparams, hcode, hresult])
  · exact .fail

/-- **An expression without a comma** is well-formed. Where an angle bracket could start markup or
type parameters both are tried. -/
theorem assignmentRule_formed : (assignmentRule g).Gives Plain := by
  refine .step fun _ => .step fun _ => .ite (.step fun _ => .ite ?_ ?_) (plainAssignment_formed hg)
  · exact .orElse (.silently (plainAssignment_formed hg)) (.silently (genericArrow_formed hg))
  · refine .bind (.attempt (.silently (genericArrow_formed hg))) fun found hfound => ?_
    cases found with
    | some n => exact .pure (hfound n rfl)
    | none => exact plainAssignment_formed hg

/-- **Expressions separated by commas** make a sequence if there are several. -/
theorem expressionRule_formed : (expressionRule g).Gives Plain := by
  refine .bind hg.assignment fun first hfirst => .step fun _ => .ite (.pure hfirst) ?_
  refine .bind (P := fun all => ∀ e ∈ all, Plain e)
    (.iterate (fun acc => ∀ e ∈ acc, Plain e) (by simp [hfirst]) fun acc hacc => ?_)
    fun all hall => .pure (plain_of_parts rfl hall)
  refine .step fun _ => .ite (.bind hg.assignment fun e he => .more ?_) (.done ?_)
  · exact List.forall_mem_cons.mpr ⟨he, hacc⟩
  · exact forall_mem_reverse hacc

end Rules

end JsxWidgets.Syntax
