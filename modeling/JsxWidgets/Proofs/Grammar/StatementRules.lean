import JsxWidgets.Proofs.Grammar.ExpressionRules
import JsxWidgets.Syntax.Grammar.Modules

/-!
# What the rules for statements and modules give

Statements, declarations and the items of a module are made of expressions, patterns, types and
other statements.
-/

namespace JsxWidgets.Syntax

open Reading Node

section Rules

variable {g : Rules} (hg : (g ()).IsFormed)
include hg

/-! ### Variables -/

/-- A variable of a declaration. Its pattern takes the type behind it in, and its value may be
missing. -/
theorem declarator_formed (kind : VariableKind) (inHead : Bool) :
    (declarator g kind inHead).Gives Plain := by
  refine .step fun place => .step fun _ => .when fun _ => .bind hg.pattern fun bare hbare => ?_
  refine .step fun _ => .when fun _ => .bind (typeAnnotation_formed hg) fun type htype => ?_
  have hpat := hbare.withType htype
  have hdone : Gives (pure ⟨.declarator, place, [bare.withType type, .absent]⟩) Plain :=
    .pure (by simp [hpat])
  refine .step fun _ => .ite hdone (.step fun _ => .step fun _ => .ite (.step fun _ => ?_) ?_)
  · exact .bind hg.assignment fun value hvalue => .pure (by simp [hpat, hvalue])
  · exact .step fun _ => .ite (.ite (.step fun _ => hdone) (.when fun _ => hdone)) hdone

/-- Variables, without the end of the statement. In the head of a loop there may be none at all,
which is reported. -/
theorem declarators_formed (inHead : Bool) : (declarators g inHead).Gives Plain := by
  refine .step fun t => ?_
  split
  · exact .fail
  refine .step fun _ => ?_
  extract_lets rest
  have hrest : ∀ u, (rest u).Gives Plain := by
    refine fun _ => .bind (P := fun nodes => ∀ n ∈ nodes, Plain n) (.inScope ?_) ?_
    · refine .iterate (fun acc => ∀ n ∈ acc, Plain n) (fun n hn => nomatch hn) fun acc hacc => ?_
      refine .step fun _ => .step fun _ => .ite ?_ ?_
      · exact .step fun last => .step fun _ => .done (forall_mem_reverse hacc)
      · refine .bind (declarator_formed hg _ _) fun n hn => .step fun _ => ?_
        have hmore : ∀ b ∈ n :: acc, Plain b := List.forall_mem_cons.mpr ⟨hn, hacc⟩
        exact .ite (.more hmore) (.done (forall_mem_reverse hmore))
    · exact fun nodes hnodes => .pure (plain_of_parts rfl hnodes)
  exact .ite (.step fun _ => .ite (.step fun _ => .pure (plain_leaf rfl)) (hrest ())) (hrest ())

theorem variableDeclaration_formed : (variableDeclaration g).Gives Plain :=
  .bind (declarators_formed hg _) fun _ hn => .step fun _ => .pure hn

/-- Variables that own resources. What is wrong with them is reported and changes nothing. -/
theorem resourceVariables_formed (place : Place) : (resourceVariables g place).Gives Plain := by
  refine .step fun _ => .bind (P := fun nodes => ∀ n ∈ nodes, Plain n) ?_ fun nodes hnodes => ?_
  · refine .iterate (fun acc => ∀ n ∈ acc, Plain n) (fun n hn => nomatch hn) fun acc hacc => ?_
    refine .step fun _ => .ite ?_ ?_
    · exact .step fun last => .step fun _ => .done (forall_mem_reverse hacc)
    · refine .bind (declarator_formed hg _ _) fun n hn => .step fun _ => ?_
      have hmore : ∀ b ∈ n :: acc, Plain b := List.forall_mem_cons.mpr ⟨hn, hacc⟩
      exact .ite (.more hmore) (.done (forall_mem_reverse hmore))
  · exact .step fun _ => .whenNot fun _ => .step fun _ => .step fun _ =>
      .pure (plain_of_parts rfl hnodes)

/-- A declaration of variables that own resources. Where no variable follows the words for it, the
second one is the start of what is waited for. -/
theorem resourceStatement?_formed :
    (resourceStatement? g).Gives fun o => ∀ n ∈ o, n.Plain := by
  refine .step fun place => ?_
  extract_lets declaration
  have hdeclaration : Gives (do return some (← declaration)) fun o => ∀ n ∈ o, n.Plain := by
    refine .bind (P := Plain) (.bind (resourceVariables_formed hg _) fun n hn => .pure ?_) ?_
    · simp [hn]
    · exact fun n hn => .pure (by simpa using hn)
  refine .step fun _ => .ite (.step fun _ => .ite hdeclaration (.pure (by simp))) ?_
  refine .step fun _ => .step fun _ => .ite (.step fun _ => .step fun _ => ?_) (.pure (by simp))
  refine .ite hdeclaration (.bind (awaited_formed hg _) fun e he => ?_)
  exact .bind (.withIn (hg.operators e 0 he)) fun n hn => .step fun _ => .pure (by simp [hn])

omit hg in
/-- An expression in the head of a loop that turns out to introduce a resource is a declaration
without a value. -/
theorem resourceHead?_formed (head : Node) :
    (resourceHead? head).Gives fun o => ∀ n ∈ o, n.Plain := by
  refine .step fun _ => .step fun _ => .step fun _ => .ite ?_ (.pure (by simp))
  exact .step fun ⟨p, name⟩ => .step fun _ => .when fun _ => .pure (by simp)

/-! ### Declarations of types, enumerations and namespaces -/

/-- An interface is made of its type parameters, its parents and its members; the last two are
well-formed without being ordinary. -/
theorem interfaceDeclaration_formed : (interfaceDeclaration g).Gives Plain := by
  refine .step fun place => .step fun _ => .step fun ⟨p, text⟩ => .when fun _ => ?_
  refine .bind (typeParameters?_formed hg _) fun generic hgeneric => .step fun _ => ?_
  refine .either (heritages_formed hg) (.pure (by simp)) fun parents hparents => .step fun _ => ?_
  extract_lets rest
  have hrest : ∀ u, (rest u).Gives Plain := fun _ =>
    .bind (typeMembers_formed hg) fun members hmembers => .pure (by
      simp [hgeneric, hparents, wellFormed_list.mpr hmembers])
  exact .ite (.step fun _ => .step fun _ => .step hrest) (hrest ())

/-- The declaration of a name for a type. -/
theorem typeNameDeclaration_formed : (typeNameDeclaration g).Gives Plain := by
  refine .step fun place => .step fun _ => .bind anyBinder_formed fun name hname => ?_
  refine .bind (typeParameters?_formed hg _) fun generic hgeneric => .step fun _ => ?_
  exact .bind hg.type fun type htype => .step fun _ => .pure (by simp [hname, hgeneric, htype])

omit hg in
/-- The name of a member of an enumeration may be any word; texts, numbers and what is computed
leave no node. -/
theorem enumMemberName_formed : (enumMemberName g).Gives Plain := by
  refine .step fun t => ?_
  split
  · exact .step fun _ => .pure plain_absent
  · exact .step fun _ => .step fun _ => .pure plain_absent
  · exact .step fun _ => .step fun _ => .step fun _ => .whenNot fun _ => .pure plain_absent
  · exact anyBinder_formed

/-- The members of an enumeration, each with a value that may be missing. -/
theorem enumMembers_formed : (enumMembers g).Gives fun members => ∀ n ∈ members, n.Plain := by
  refine .iterate (fun acc => ∀ n ∈ acc, Plain n) (fun n hn => nomatch hn) fun acc hacc => ?_
  refine .step fun _ => .ite (.done (forall_mem_reverse hacc)) (.step fun place => ?_)
  refine .bind enumMemberName_formed fun name hname => ?_
  refine .bind (gives_optional hg.assignment plain_absent) fun value hvalue => ?_
  have hmore : ∀ b ∈ (⟨.enumMember, place, [name, value]⟩ : Node) :: acc, Plain b :=
    List.forall_mem_cons.mpr ⟨by simp [hname, hvalue], hacc⟩
  refine .step fun _ => .ite (.more hmore) (.step fun _ => .ite (.more hmore) (.ite ?_ ?_))
  · exact .step fun _ => .step fun _ => .step fun _ => .more hmore
  · exact .step fun _ => .step fun _ => .step fun _ => .more hmore

/-- An enumeration keeps its members directly among its parts, behind its name. -/
theorem enumDeclaration_formed : (enumDeclaration g).Gives Plain := by
  refine .step fun place => .step fun _ => .step fun _ => ?_
  refine .bind anyBinder_formed fun name hname => .step fun _ => ?_
  refine .bind (enumMembers_formed hg) fun members hmembers => .pure ?_
  exact plain_of_parts rfl (List.forall_mem_cons.mpr ⟨hname, hmembers⟩)

/-- The items of a namespace are items of a module. -/
theorem spaceItems_formed : (spaceItems g).Gives Plain :=
  .step fun _ => .bind (.bracketed (gives_untilBrace hg.moduleItem)) fun _ hitems =>
    .pure (plain_list_of_parts hitems)

/-- A namespace keeps the words of its name in a row. One that is named by a text or is the
outermost one has no words there. -/
theorem spaceDeclaration_formed : (spaceDeclaration g).Gives Plain := by
  -- a name or a chain of names: the items behind are read the same way
  have hitems : ∀ place (names : List Node), (∀ n ∈ names, n.Plain) →
      Gives (do return ⟨.space, place, [.list names, ← spaceItems g]⟩) Plain :=
    fun place names hnames => .bind (spaceItems_formed hg) fun items hitems =>
      .pure (by simp [plain_list_of_parts hnames, hitems])
  refine .step fun place => .step fun _ => .ite (hitems _ _ (by simp)) (.step fun _ => ?_)
  refine .step fun _ => ?_
  split
  · refine .step fun _ => .step fun _ => .ite (hitems _ _ (by simp)) (.step fun _ => ?_)
    exact .pure (by simp)
  · refine .bind anyBinder_formed fun first hfirst => ?_
    refine .bind (P := fun names => ∀ n ∈ names, Plain n)
      (.iterate (fun acc => ∀ n ∈ acc, Plain n) (by simp [hfirst]) fun acc hacc => ?_)
      fun names hnames => hitems _ _ hnames
    refine .step fun _ => .ite (.bind anyBinder_formed fun n hn => .more ?_) (.done ?_)
    · exact List.forall_mem_cons.mpr ⟨hn, hacc⟩
    · exact forall_mem_reverse hacc

/-- A declaration that only files with types have. The kinds are told by the first word and share
one way of being read. -/
theorem typedDeclaration?_formed (mayBreak : Bool) :
    (typedDeclaration? g mayBreak).Gives fun o => ∀ n ∈ o, n.Plain := by
  refine .step fun _ => .ite (.pure (by simp)) (.step fun t => .step fun next => ?_)
  extract_lets named read isQuoted
  -- the declaration that is found is given as it is
  have hread : ∀ p : Reading Node, p.Gives Plain → (read p).Gives fun o => ∀ n ∈ o, n.Plain :=
    fun p hp => .map (hp.mono fun n hn => by simpa using hn)
  have hnone : Gives (pure none) fun o => ∀ n ∈ o, Plain n := .pure (by simp)
  split
  · exact hread _ (enumDeclaration_formed hg)
  · exact .ite (hread _ (enumDeclaration_formed hg)) hnone
  · exact .ite (hread _ (classDeclaration_formed hg)) hnone
  · exact .ite (hread _ (interfaceDeclaration_formed hg)) hnone
  · exact .ite (hread _ (typeNameDeclaration_formed hg)) hnone
  · exact .ite (hread _ (spaceDeclaration_formed hg)) hnone
  · exact .ite (hread _ (spaceDeclaration_formed hg)) hnone
  · exact .ite (hread _ (spaceDeclaration_formed hg)) hnone
  · exact hnone

/-- A declaration of something that exists elsewhere, which may have types in it or be a usual
one. -/
theorem ambientDeclaration?_formed :
    (ambientDeclaration? g).Gives fun o => ∀ n ∈ o, n.Plain := by
  refine .inScope (.bind (typedDeclaration?_formed hg _) fun found hfound => ?_)
  cases found with
  | some n => exact .pure hfound
  | none =>
    refine .step fun _ => .ite ?_ (.step fun _ => .ite ?_ (.step fun _ => ?_))
    · exact .bind (functionDeclaration_formed hg) fun n hn => .pure (by simpa using hn)
    · exact .bind (classDeclaration_formed hg) fun n hn => .pure (by simpa using hn)
    · refine .ite (.bind (variableDeclaration_formed hg) fun n hn => .pure ?_) (.pure (by simp))
      simpa using hn

/-- What is declared to exist elsewhere starts at the word that says so, and is otherwise kept as it
is. -/
theorem declared?_formed : (declared? g).Gives fun o => ∀ n ∈ o, n.Plain := by
  refine .step fun t => .step fun _ => .step fun _ => .step fun _ => .step fun _ => ?_
  refine .ite (.bind (.attempt (P := Plain) ?_) fun found hfound => .pure ?_) (.pure (by simp))
  · exact .step fun _ => .bind (ambientDeclaration?_formed hg) fun found hfound => by
      cases found with
      | some n => exact .pure (hfound n rfl)
      | none => exact .fail
  · cases found with
    | some n => simpa using ⟨(hfound n rfl).form, (hfound n rfl).parts⟩
    | none => simp

/-! ### Loops and choices -/

/-- An expression in parentheses. -/
theorem inParens_formed : (inParens g).Gives Plain :=
  .step fun _ => .bind (.bracketed hg.expression) fun _ he => .step fun _ => .pure he

/-- The body of a loop is a statement. -/
theorem loopBody_formed : (loopBody g).Gives Plain := .inScope (hg.statement false)

/-- The rest of a loop over keys or values, whose head is a declaration or a target. -/
theorem eachRest_formed (place : Place) (waits : Bool) {head : Node} (hhead : head.Plain) :
    (eachRest g place waits head).Gives Plain := by
  refine .step fun _ => ?_
  extract_lets rest
  have hrest : ∀ subject : Node, subject.Plain → (rest subject).Gives Plain := by
    refine fun subject hsubject => .step fun _ => .bind (loopBody_formed hg) fun code hcode => ?_
    exact .pure (by simp [hhead, hsubject, hcode])
  refine .ite (.bind (.withIn hg.assignment) hrest) (.step fun _ => .when fun _ => ?_)
  exact .bind (.withIn hg.expression) hrest

/-- The rest of a loop with a counter, each part of which may be missing. -/
theorem counterRest_formed (place : Place) (waits : Bool) {start : Node} (hstart : start.Plain) :
    (counterRest g place waits start).Gives Plain := by
  unfold counterRest
  have hpart : ∀ c, (optional c (withIn (g ()).expression)).Gives Plain := fun c =>
    gives_optional (.withIn hg.expression) plain_absent
  refine .when fun _ => .step fun _ => .bind (hpart _) fun test htest => .step fun _ => ?_
  refine .bind (hpart _) fun step hstep => .step fun _ => ?_
  exact .bind (loopBody_formed hg) fun code hcode => .pure (by simp [hstart, htest, hstep, hcode])

/-- A loop is told apart by what stands behind its head. An expression in the head is a target only
if the loop is one over keys or values. -/
theorem forStatement_formed : (forStatement g).Gives Plain := by
  refine .step fun place => .step fun _ => .step fun waits => .step fun _ => .step fun _ => ?_
  refine .ite (counterRest_formed hg _ _ plain_absent) (.step fun _ => .ite ?_ ?_)
  · refine .bind (.inScope (declarators_formed hg true)) fun head hhead => .step fun _ => .ite ?_ ?_
    · exact .step fun _ => .step fun _ => eachRest_formed hg _ _ hhead
    · exact counterRest_formed hg _ _ hhead
  refine .bind (.inScope hg.expression) fun head hhead => ?_
  refine .bind (resourceHead?_formed head) fun
    | some n, hn => eachRest_formed hg place waits (hn n rfl)
    | none, _ => ?_
  refine .step fun _ => .ite (.step fun _ => ?_) (counterRest_formed hg _ _ hhead)
  refine .bind (loopTarget_formed hhead) fun target htarget => .step fun _ => .when fun _ => ?_
  exact eachRest_formed hg _ _ htarget

/-- A case keeps its test and its statements in one row. -/
theorem switchCase_formed (hasDefault : Bool) :
    (switchCase g hasDefault).Gives fun x => x.1.Plain := by
  refine .step fun place => .step fun isCase => ?_
  extract_lets rest default
  have hrest : ∀ test : Node, test.Plain → (rest test).Gives fun x => x.1.Plain := by
    refine fun test htest => .step fun _ => .bind (P := fun code => ∀ n ∈ code, Plain n) ?_ ?_
    · refine .iterate (fun acc => ∀ n ∈ acc, Plain n) (fun n hn => nomatch hn) fun acc hacc => ?_
      refine .step fun _ => .step fun _ => .step fun _ => .step fun _ => ?_
      refine .ite (.done (forall_mem_reverse hacc)) (.bind (hg.statement true) fun n hn => .more ?_)
      exact List.forall_mem_cons.mpr ⟨hn, hacc⟩
    · exact fun code hcode => .pure (plain_of_parts rfl (List.forall_mem_cons.mpr ⟨htest, hcode⟩))
  have hdefault : ∀ u, (default u).Gives fun x => x.1.Plain := fun _ =>
    .bind (.pure plain_absent) hrest
  exact .ite (.bind (.withIn hg.expression) hrest) (.step fun _ => .when hdefault)

/-- A choice by cases keeps what is asked for in front of the cases. -/
theorem switchStatement_formed : (switchStatement g).Gives Plain := by
  refine .step fun place => .step fun _ => .bind (inParens_formed hg) fun subject hsubject => ?_
  refine .step fun _ => .bind (P := fun cases => ∀ n ∈ cases, Plain n) (.inScope ?_) ?_
  · refine .iterate (fun x => ∀ n ∈ x.1, Plain n) (fun n hn => nomatch hn) ?_
    rintro ⟨acc, hasDefault⟩ hacc
    refine .step fun _ => .ite (.done (forall_mem_reverse hacc)) ?_
    refine .bind (switchCase_formed hg _) fun ⟨n, isDefault⟩ hn => .more ?_
    exact List.forall_mem_cons.mpr ⟨hn, hacc⟩
  · intro cases hcases
    exact .pure (plain_of_parts rfl (List.forall_mem_cons.mpr ⟨hsubject, hcases⟩))

/-- A choice between two statements, the second of which may be missing. -/
theorem ifStatement_formed : (ifStatement g).Gives Plain := by
  refine .step fun place => .step fun _ => .bind (inParens_formed hg) fun test htest => ?_
  refine .bind (hg.statement false) fun yes hyes => ?_
  refine .bind (gives_optional (hg.statement false) plain_absent) fun no hno => .pure ?_
  simp [htest, hyes, hno]

/-! ### Jumps and exceptions -/

omit hg in
/-- A jump has its label as its part, if it has one. -/
theorem jumpStatement_formed : jumpStatement.Gives Plain := by
  refine .step fun t => .step fun _ => ?_
  extract_lets rest
  have hrest : ∀ label, (rest label).Gives Plain := by
    refine fun label => .step fun s => ?_
    have hlabel : ∀ n ∈ label.map fun found => Node.leaf (.binder found.2) found.1, n.Plain := by
      intro n hn
      obtain ⟨found, -, rfl⟩ := Option.map_eq_some_iff.mp hn
      exact plain_leaf rfl
    have hdone : Gives (pure ⟨.jump, t.place,
        [.ofOption (label.map fun found => .leaf (.binder found.2) found.1)]⟩) Plain :=
      .pure (by simp [plain_ofOption hlabel])
    refine .ite (.ite (.step fun _ => hdone) (.when fun _ => hdone)) ?_
    exact .ite (.step fun _ => hdone) (.when fun _ => hdone)
  exact .ite (.step hrest) (.step fun _ => .step fun _ => .step hrest)

/-- The value that a function gives may be missing. -/
theorem returnStatement_formed : (returnStatement g).Gives Plain := by
  refine .step fun place => .step fun _ => .step fun _ => .choose fun isEmpty => ?_
  refine .either (.pure plain_absent) (.withIn hg.expression) fun value hvalue => .step fun _ => ?_
  exact .step fun _ => .whenNot fun _ => .pure (by simp [hvalue])

/-- The pattern of a handler may be missing, and takes in the type behind it otherwise. -/
theorem handlerClause_formed : (handlerClause g).Gives Plain := by
  refine .step fun place => .step fun _ => .step fun _ => ?_
  extract_lets rest
  have hrest : ∀ pat : Node, pat.Plain → (rest pat).Gives Plain := fun pat hpat =>
    .bind (body_formed hg) fun code hcode => .pure (by simp [hpat, hcode])
  refine .ite (.bind hg.pattern fun pat hpat => ?_) (.bind (.pure plain_absent) hrest)
  refine .bind (typeAnnotation_formed hg) fun type htype => .step fun _ => ?_
  exact .bind (.pure (hpat.withType htype)) hrest

theorem cleanupClause?_formed : (cleanupClause? g).Gives Plain :=
  gives_optional (body_formed hg) plain_absent

/-- An attempt with its handler and its cleanup, either of which may be missing. -/
theorem tryStatement_formed : (tryStatement g).Gives Plain := by
  refine .step fun place => .step fun _ => .bind (body_formed hg) fun code hcode => ?_
  refine .step fun behind => ?_
  refine .bind (gives_optional (handlerClause_formed hg) plain_absent) fun handler hhandler => ?_
  refine .bind (cleanupClause?_formed hg) fun cleanup hcleanup => .when fun _ => .pure ?_
  simp [hcode, hhandler, hcleanup]

omit hg in
/-- A handler without an attempt is passed over and leaves an expression that is none. -/
theorem strayHandler_formed : (strayHandler g).Gives Plain :=
  .step fun place => .step fun _ => .step fun _ => .step fun _ => .pure (by simp [Node.invalid])

/-- A statement behind a label. A function there is a declaration, at the price of a fault. -/
theorem labeledRest_formed (place : Place) (text : String) :
    (labeledRest g place text).Gives Plain := by
  refine .step fun s => .bind (P := Plain) (.inScope ?_) fun inner hinner => .step fun _ => .pure ?_
  · refine .step fun t => .step fun _ => .ite ?_ (hg.statement false)
    refine .step fun _ => .bind (functionDeclaration_formed hg) fun n hn => .step fun _ => ?_
    exact .when fun _ => .pure (by simp [hn])
  · simp [hinner]

/-! ### Statements -/

/-- An interface behind a word that does not belong there. -/
theorem markedInterface?_formed (name : Node) :
    (markedInterface? g name).Gives fun o => ∀ n ∈ o, n.Plain := by
  refine .step fun _ => .step fun _ => .ite (.step fun _ => ?_) (.pure (by simp))
  exact .bind (interfaceDeclaration_formed hg) fun n hn => .pure (by simp [hn])

/-- An expression as a statement. One that is a name may be a label or mark an interface, and one
that is followed by an operator goes on behind a fault. -/
theorem expressionStatement_formed : (expressionStatement g).Gives Plain := by
  refine .step fun place => .bind (.withIn hg.expression) fun e he => ?_
  extract_lets rest
  have hrest : ∀ u, (rest u).Gives Plain := by
    refine fun _ => .bind (markedInterface?_formed hg e) fun
      | some n, hn => .pure (hn n rfl)
      | none, _ => ?_
    refine .step fun _ => .ite (.pure (by simp [he])) (.step fun _ => .ite ?_ (.failAt _))
    refine .step fun _ => .step fun _ => .bind (hg.operators e 0 he) fun n hn => .pure ?_
    simp [hn]
  split
  · exact .step fun _ => .ite (labeledRest_formed hg _ _) (hrest ())
  · exact hrest ()

/-- An import at run time as a statement. -/
theorem importStatement_formed : (importStatement g).Gives Plain := by
  refine .step fun place => .step fun _ => .whenNot fun _ => .bind hg.expression fun e he => ?_
  exact .step fun _ => .pure (by simp [he])

omit hg in
/-- A declaration becomes a statement with one part. -/
theorem asStatement_formed {p : Reading Node} (hp : p.Gives Plain) : (asStatement p).Gives Plain :=
  .bind hp fun n hn => .pure (by simp [hn])

/-- Statements that are told by their first word. Each of them is made of what other rules give. -/
theorem wordStatement?_formed (place : Place) (text : String) :
    ∀ p ∈ wordStatement? g place text, p.Gives Plain := by
  intro p hp
  unfold wordStatement? at hp
  -- one rule for each word that starts a statement
  split at hp
  all_goals cases hp
  · exact ifStatement_formed hg
  · exact forStatement_formed hg
  · refine .step fun _ => .bind (inParens_formed hg) fun test htest => ?_
    exact .bind (loopBody_formed hg) fun code hcode => .pure (by simp [htest, hcode])
  · refine .step fun _ => .bind (loopBody_formed hg) fun code hcode => .step fun _ => ?_
    exact .bind (inParens_formed hg) fun test htest => .step fun _ => .pure (by simp [htest, hcode])
  · exact switchStatement_formed hg
  · exact jumpStatement_formed
  · exact jumpStatement_formed
  · exact returnStatement_formed hg
  · refine .step fun _ => .step fun _ => .when fun _ => .bind (.withIn hg.expression) fun e he => ?_
    exact .step fun _ => .pure (by simp [he])
  · exact tryStatement_formed hg
  · exact strayHandler_formed
  · exact strayHandler_formed
  · refine .step fun _ => .when fun _ => .step fun _ => .step fun _ => ?_
    refine .bind (inParens_formed hg) fun object hobject => ?_
    refine .bind (.inScope (hg.statement false)) fun inner hinner => .pure ?_
    simp [hobject, hinner]
  · exact .step fun _ => .step fun _ => .pure (plain_leaf rfl)
  · exact importStatement_formed hg

/-- **A statement** is well-formed. What the first word does not tell is tried in turn: declarations
that only files with types have, other declarations, and expressions. -/
theorem statementRule_formed (mayDeclare : Bool) : (statementRule g mayDeclare).Gives Plain := by
  refine .step fun t => ?_
  split
  · exact .bind (statements_formed hg) fun code hcode => .pure (plain_of_parts rfl hcode)
  · exact .step fun _ => .pure (plain_leaf rfl)
  · extract_lets last rest
    -- only where no resource is declared the word decides
    have hrest : ∀ u, (rest u).Gives Plain := by
      intro _
      unfold rest
      split
      · next p hp => exact wordStatement?_formed hg _ _ p hp
      refine .ite (.whenNot fun _ => asStatement_formed ?_) (.step fun _ => .ite ?_ ?_)
      · split
        · exact classDeclaration_formed hg
        · exact functionDeclaration_formed hg
      · exact asStatement_formed (functionDeclaration_formed hg)
      have hplaced : ∀ n : Node, n.Plain → Gives (pure ⟨.declStmt, n.place, [n]⟩) Plain :=
        fun n hn => .pure (by simp [hn])
      refine .bind (typedDeclaration?_formed hg _) fun
        | some n, hn => hplaced n (hn n rfl)
        | none, _ => ?_
      refine .bind (declared?_formed hg) fun
        | some n, hn => hplaced n (hn n rfl)
        | none, _ => .step fun _ => ?_
      refine .ite (asStatement_formed ?_) (expressionStatement_formed hg)
      exact variableDeclaration_formed hg
    refine .ite (.bind (resourceStatement?_formed hg) fun
      | some n, hn => .pure (hn n rfl)
      | none, _ => hrest ()) (hrest ())
  · exact expressionStatement_formed hg

/-! ### Items of a module -/

/-- The attributes of an import are the properties of an object, kept in a row. -/
theorem moduleAttributes_formed : (moduleAttributes g).Gives Plain := by
  refine .step fun t => .step fun _ => .ite (.step fun _ => .step fun place => ?_) (.pure (by simp))
  refine .step fun _ => .bind (.bracketed (objectProperties_formed hg _)) fun properties h => ?_
  exact .pure (plain_list_of_parts h)

/-- Where something is imported from, with its attributes. -/
theorem fromClause_formed : (fromClause g).Gives fun x => x.2.Plain := by
  refine .step fun _ => .step fun source => ?_
  exact .bind (moduleAttributes_formed hg) fun attributes h => .step fun _ => .pure h

omit hg in
/-- A name for something of another module or namespace. -/
theorem importAliasRest_formed (place : Place) {name : Node} (hname : name.Plain) :
    (importAliasRest place name).Gives Plain := by
  refine .step fun _ => .step fun _ => .step fun _ => .ite ?_ ?_
  · refine .step fun _ => .step fun _ => .step fun _ => .step fun _ => .step fun _ => .pure ?_
    simp [hname]
  · refine .bind entityName_formed fun entity hentity => .step fun _ => .pure ?_
    simp [hname, hentity]

/-- An import keeps its attributes as its only part; a name given to another module or to an entity
has that as its part. -/
theorem importItem_formed : (importItem g).Gives Plain := by
  refine .step fun place => .step fun _ => .step fun t => ?_
  split
  · refine .step fun _ => .bind (moduleAttributes_formed hg) fun attributes h => .step fun _ => ?_
    exact .pure (by simp [h])
  · refine .step fun head => ?_
    extract_lets rest
    have hrest : ∀ main, (rest main).Gives Plain := fun main => .step fun group => by
      refine .bind (fromClause_formed hg) fun ⟨source, attributes⟩ h => .pure ?_
      simp [Plain.wellFormed h]
    split
    · exact .step hrest
    · refine .step fun _ => .step fun _ => .ite (importAliasRest_formed _ (plain_leaf rfl)) ?_
      exact .step fun _ => .whenNot fun _ => .step hrest

/-- A list of exports, or all exports of another module, keeps the attributes of that module. -/
theorem exportListRest_formed (place : Place) (typeOnly : Bool) :
    (exportListRest g place typeOnly).Gives Plain := by
  refine .step fun _ => .ite (.step fun _ => .ite (.step fun name => ?_) ?_) (.step fun found => ?_)
  · exact .bind (fromClause_formed hg) fun ⟨source, attributes⟩ h => .pure (by simp [h])
  · exact .bind (fromClause_formed hg) fun ⟨source, attributes⟩ h => .pure (by simp [h])
  · refine .step fun _ => .ite ?_ (.step fun _ => .step fun _ => .pure (by simp))
    exact .bind (fromClause_formed hg) fun ⟨source, attributes⟩ h => .pure (by simp [h])

/-- A default export of a declaration, whose name may be missing, or of an expression. -/
theorem exportDefaultRest_formed (place : Place) : (exportDefaultRest g place).Gives Plain := by
  refine .step fun typed => .step fun next => .step fun _ => ?_
  extract_lets isMarked isAbstract rest behind
  have hrest : ∀ u, (rest u).Gives Plain := by
    refine fun _ => .step fun _ => .ite ?_ (.step fun _ => .ite ?_ (.step fun _ => .ite ?_ ?_))
    · exact .bind (interfaceDeclaration_formed hg) fun n hn => .pure (by simp [hn])
    · refine .bind binder?_formed fun name hname => ?_
      exact .bind (classRest_formed hg _ _) fun cls hcls => .pure (by simp [hname, hcls])
    · refine .step fun ⟨isAsync, isGenerator⟩ => .bind binder?_formed fun name hname => ?_
      refine .bind (.inScope (functionRest_formed hg _ _ (formalParameters_formed hg) _))
        fun fn hfn => .pure ?_
      simp [hname, hfn.1]
    · exact .bind (.withIn hg.assignment) fun e he => .step fun _ => .pure (by simp [he])
  have hbehind : ∀ u, (behind u).Gives Plain := fun _ =>
    .ite (.step fun _ => .step fun _ => .step hrest) (hrest ())
  exact .when hbehind

/-- An exported declaration that only files with types have. What is found without its faults is
kept if it is a declaration. -/
theorem typedExport?_formed (place : Place) :
    (typedExport? g place).Gives fun o => ∀ n ∈ o, n.Plain := by
  refine .step fun _ => .ite (.pure (by simp)) (.step fun _ => ?_)
  extract_lets aliased rest behind
  have haliased : ∀ u, (aliased u).Gives fun o => ∀ n ∈ o, n.Plain := by
    refine fun _ => .bind anyBinder_formed fun name hname => ?_
    exact .bind (importAliasRest_formed _ hname) fun n hn => .pure (by simpa using hn)
  have hrest : ∀ u, (rest u).Gives fun o => ∀ n ∈ o, n.Plain := by
    refine fun _ => .step fun _ => .ite (.step fun _ => .step fun _ => .when haliased) ?_
    refine .step fun _ => .ite (.bind hg.expression fun e he => .step fun _ => .pure ?_) ?_
    · simp [he]
    · refine .step fun _ => .ite (.step fun _ => .step fun _ => .step fun _ => .pure ?_) (.pure ?_)
      · simp [plain_leaf]
      · simp
  -- a declaration is tried first, an assignment or a name space after it
  have hbehind : ∀ u, (behind u).Gives fun o => ∀ n ∈ o, n.Plain := by
    refine fun _ => .step fun isConstant => .ite (.step fun _ => .ite ?_ (.pure (by simp))) ?_
    · exact .bind (enumDeclaration_formed hg) fun n hn => .pure (by simp [hn])
    refine .step fun _ => .ite (.bind (.attempt (.silently (typedDeclaration?_formed hg _))) ?_)
      (hrest ())
    intro found hfound
    split
    · next n => exact .pure (by simpa using (hfound _ rfl n rfl).wellFormed)
    · exact hrest ()
  exact .ite (.bind (ambientDeclaration?_formed hg) fun
    | some n, hn => .pure (by simpa using (hn n rfl).wellFormed)
    | none, _ => hbehind ()) (hbehind ())

/-- An export of a declaration has it as its part. -/
theorem exportItem_formed : (exportItem g).Gives Plain := by
  refine .step fun place => .step fun _ => .bind (typedExport?_formed hg _) fun
    | some n, hn => .pure (hn n rfl)
    | none, _ => ?_
  refine .step fun _ => .choose fun typeOnly => .ite (exportListRest_formed hg _ _) ?_
  refine .step fun _ => .ite (exportDefaultRest_formed hg _) ?_
  refine .step fun _ => .ite ?_ (.step fun _ => .ite ?_ (.step fun _ => .ite ?_ ?_))
  · exact .bind (classDeclaration_formed hg) fun n hn => .pure (by simp [hn])
  · exact .bind (functionDeclaration_formed hg) fun n hn => .pure (by simp [hn])
  · exact .bind (variableDeclaration_formed hg) fun n hn => .pure (by simp [hn])
  · exact exportListRest_formed hg _ _

/-- **An item of a module** is an import, an export or a statement. -/
theorem moduleItemRule_formed : (moduleItemRule g).Gives Plain := by
  refine .step fun _ => .step fun _ => .ite (importItem_formed hg) ?_
  exact .step fun _ => .ite (exportItem_formed hg) (hg.statement true)

end Rules

end JsxWidgets.Syntax
