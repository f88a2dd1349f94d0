import JsxWidgets.Proofs.Grammar.WellFormed
import JsxWidgets.Proofs.Syntax.Readings

/-!
# What the rules for patterns and types give

The rules of the grammar refer to one another in circles, so that what they give is well-formed is
proved for each rule under the assumption that it is so for those that the rule asks a grammar for
(`Grammar.IsFormed`). Nearly all rules build an ordinary construct from what other rules give: this
is seen step by step along the text of a rule, where most steps give nothing that goes into the
node. A step that is passed over is a `.step`, one whose node is used is a `.bind`, and what goes on
behind a condition or a `match` is brought out with `extract_lets` and seen once.

Here it is seen for the rules for names, patterns, parameters and types. Members of object types are
the only ones of them that are well-formed without being ordinary: their keys may be any word.
-/

namespace JsxWidgets.Syntax

open Reading Node

/-- **A grammar whose rules give well-formed nodes.** All but the rule for markup give ordinary
constructs. -/
structure Grammar.IsFormed (g : Grammar) : Prop where
  /-- Expressions separated by commas. -/
  expression : g.expression.Gives Node.Plain
  /-- An expression without a comma. -/
  assignment : g.assignment.Gives Node.Plain
  /-- What follows an operand. -/
  operators : ∀ first floor, first.Plain → (g.operators first floor).Gives Node.Plain
  /-- An operand. -/
  unary : g.unary.Gives Node.Plain
  /-- An expression that can be called or accessed. -/
  access : g.access.Gives Node.Plain
  /-- A construction. -/
  construction : g.construction.Gives Node.Plain
  /-- A statement. -/
  statement : ∀ mayDeclare, (g.statement mayDeclare).Gives Node.Plain
  /-- An item of a module. -/
  moduleItem : g.moduleItem.Gives Node.Plain
  /-- A pattern. -/
  pattern : g.pattern.Gives Node.Plain
  /-- A type. -/
  type : g.type.Gives Node.Plain
  /-- Markup. -/
  markup : ∀ after, (g.markup after).Gives Node.WellFormed

/-! ### Names -/

theorem binder_formed : binder.Gives Plain := .step fun _ => .pure (plain_leaf rfl)

theorem binder?_formed : binder?.Gives Plain :=
  .step fun _ => .ite binder_formed (.pure plain_absent)

theorem anyBinder_formed : anyBinder.Gives Plain := .step fun _ => .pure (plain_leaf rfl)

theorem entityName_formed : entityName.Gives Plain := by
  refine .step fun ⟨place, root⟩ => .whenAt fun _ => .step fun name => ?_
  exact .pure (plain_leaf rfl)

/-! ### Types of patterns -/

/-- A pattern with another type. -/
theorem Node.Plain.withType {pat type : Node} (hpat : pat.Plain) (htype : type.Plain) :
    (pat.withType type).Plain := by
  unfold Node.withType
  split
  · simp [htype]
  · simp [hpat.parts _ List.mem_cons_self, htype]
  · simp [hpat.parts _ List.mem_cons_self, htype]
  · simp [hpat.parts _ List.mem_cons_self, htype]
  · exact hpat

section Rules

variable {g : Rules} (hg : (g ()).IsFormed)
include hg

/-- A type behind a colon, where there may be one. -/
theorem typeAnnotation_formed : ( typeAnnotation g).Gives Plain :=
  .step fun _ => .step fun _ => .ite (.step fun _ => hg.type) (.pure plain_absent)

/-! ### Patterns -/

/-- A key in brackets. Several expressions in it, which are a fault, make a sequence. -/
theorem computedKey_formed (place : Place) : (computedKey g place).Gives Plain := by
  refine .step fun inside => .bind hg.assignment fun first hfirst => ?_
  refine .step fun _ => .step fun _ => ?_
  extract_lets rest
  have hrest : ∀ e : Node, e.Plain → (rest e).Gives Plain := fun e he =>
    .step fun _ => .pure (by simp [he])
  refine .ite (.bind (.iterate (P := fun all => ∀ e ∈ all, Plain e)
    (fun acc => ∀ e ∈ acc, Plain e) (by simp [hfirst]) ?_) ?_) (.bind (.pure hfirst) hrest)
  · intro acc hacc
    refine .step fun goesOn => .ite (.bind hg.assignment fun e he => .more ?_) (.done ?_)
    · exact List.forall_mem_cons.mpr ⟨he, hacc⟩
    · exact forall_mem_reverse hacc
  · exact fun all hall => .step fun _ => .bind (.pure (plain_of_parts rfl hall)) hrest

/-- The key of a property, which keeps its text or its value unless it is computed. -/
theorem propertyKey_formed : (propertyKey g).Gives Plain := by
  refine .step fun t => ?_
  extract_lets leaf
  have hleaf : ∀ form, form.isOrdinary = true → (leaf form).Gives Plain := fun form hform =>
    .step fun _ => .pure (plain_leaf hform)
  split
  · exact hleaf _ rfl
  · exact hleaf _ rfl
  · exact hleaf _ rfl
  · exact hleaf _ rfl
  · exact .step fun _ => .bracketed (computedKey_formed hg _)
  · exact .fail

/-- A pattern with a default behind it. -/
theorem bindingElement_formed : (bindingElement g).Gives Plain := by
  refine .bind hg.pattern fun pat hpat => .step fun _ => .ite ?_ (.pure hpat)
  refine .bind (.bracketed hg.assignment) fun value hvalue => .step fun _ => .when fun _ => ?_
  exact .pure (by simp [hpat, hvalue])

/-- The items of an array pattern. Items left out are missing parts. -/
theorem arrayPatternItems_formed :
    (arrayPatternItems g).Gives fun items => ∀ n ∈ items, n.Plain := by
  refine .iterate (fun x => ∀ n ∈ x.1, Plain n) (fun n hn => nomatch hn) ?_
  rintro ⟨acc, rest⟩ hacc
  refine .step fun _ => .ite (.done (forall_mem_reverse hacc)) (.step fun _ => .ite (.more ?_) ?_)
  · exact List.forall_mem_cons.mpr ⟨plain_absent, hacc⟩
  -- Whether something that should be the last item stood in front makes no difference.
  extract_lets going
  have hgoing : ∀ u, (going u).Gives (Gives.OfGathering Plain) := by
    intro _
    refine .step fun place => .step fun isRest => ?_
    extract_lets restAt next
    have hnext : ∀ n : Node, n.Plain → (next n).Gives (Gives.OfGathering Plain) := by
      intro n hn
      have hmore : ∀ b ∈ n :: acc, Plain b := List.forall_mem_cons.mpr ⟨hn, hacc⟩
      refine .step fun _ => .ite (.more hmore) ?_
      exact .step fun _ => .step fun _ => .whenAt fun _ => .more hmore
    refine .ite (.bind hg.pattern fun inner hinner => ?_) (.bind (bindingElement_formed hg) hnext)
    exact .bind (.pure (by simp [hinner])) hnext
  split
  · exact .step hgoing
  · exact hgoing ()

/-- A part of an object pattern: a key with a pattern, a name with or without a default, or what
takes all that is left. -/
theorem objectPatternProperty_formed : (objectPatternProperty g).Gives Plain := by
  refine .step fun place => .step fun _ => .ite (.bind hg.pattern fun inner hinner => ?_) ?_
  · exact .pure (by simp [hinner])
  refine .bind (propertyKey_formed hg) fun key hkey => .step fun _ => .ite ?_ ?_
  · exact .bind (bindingElement_formed hg) fun value hvalue => .pure (by simp [hkey, hvalue])
  split
  · refine .step fun _ => .ite (.bind (.bracketed hg.assignment) fun value hvalue => ?_) ?_
    · exact .pure (by simp [hvalue])
    · exact .when fun _ => .pure (by simp)
  · exact .fail

/-- The parts of an object pattern, whatever stands behind the last of them. -/
theorem objectPatternProperties_formed :
    (objectPatternProperties g).Gives fun x => ∀ n ∈ x.1, n.Plain := by
  refine .iterate (fun x => ∀ n ∈ x.1, Plain n) (fun n hn => nomatch hn) ?_
  rintro ⟨acc, comma⟩ hacc
  refine .step fun _ => .ite (.done (forall_mem_reverse hacc)) ?_
  refine .bind (objectPatternProperty_formed hg) fun n hn => .step fun _ => ?_
  have hmore : ∀ b ∈ n :: acc, Plain b := List.forall_mem_cons.mpr ⟨hn, hacc⟩
  exact .ite (.more hmore) (.step fun _ => .step fun _ => .more hmore)

/-- **A pattern** is well-formed. -/
theorem patternRule_formed : (patternRule g).Gives Plain := by
  refine .step fun t => ?_
  split
  · refine .step fun _ => .bind (arrayPatternItems_formed hg) fun items hitems => .pure ?_
    simpa using fun n hn => (hitems n hn).wellFormed
  · refine .step fun _ => .bind (objectPatternProperties_formed hg) fun ⟨properties, comma⟩ h => ?_
    exact .step fun _ => .pure (by simpa using fun n hn => (h n hn).wellFormed)
  · exact .step fun ⟨place, text⟩ => .pure (by simp)

/-! ### Parameters -/

/-- A parameter. A type behind it goes into its pattern, unless there is a default, which is behind
the type. -/
theorem formalParameter_formed : (formalParameter g).Gives Plain := by
  refine .step fun place => .step fun isField => ?_
  refine .bind (bindingElement_formed hg) fun pat hpat => .step fun _ => ?_
  refine .choose fun isOptional => .step fun _ => .when fun _ => ?_
  refine .bind (typeAnnotation_formed hg) fun type htype => .when fun _ => ?_
  have hpat' : (if pat.form = .defaultPat then pat else pat.withType type).Plain := by
    split
    · exact hpat
    · exact hpat.withType htype
  refine .step fun _ => ?_
  extract_lets rest
  have hrest : ∀ n : Node, n.Plain → (rest n).Gives Plain := fun n hn =>
    .when fun _ => .pure hn
  refine .ite (.when fun _ => .bind hg.assignment fun value hvalue => ?_) ?_
  · exact .bind (.pure (by simp [hpat', hvalue])) hrest
  · exact .bind (.pure hpat') hrest

/-- A parameter that takes all that is left. A default is reported and kept. -/
theorem restParameter_formed (place : Place) : (restParameter g place).Gives Plain := by
  refine .bind hg.pattern fun inner hinner => .step fun _ => ?_
  extract_lets rest
  have hrest : ∀ n : Node, n.Plain → (rest n).Gives Plain := by
    intro n hn
    refine .bind (typeAnnotation_formed hg) fun type htype => .step fun _ => ?_
    have hdone : Gives (pure ⟨.rest, place, [n, type]⟩) Plain := .pure (by simp [hn, htype])
    exact .ite (.step fun _ => .whenAt fun _ => hdone) hdone
  refine .ite (.bind hg.assignment fun value hvalue => .step fun _ => ?_) ?_
  · exact .bind (.pure (by simp [hinner, hvalue])) hrest
  · exact .bind (.pure hinner) hrest

omit hg in
/-- Parameters in parentheses, whatever carries them along: what is known of each of the two kinds
is known of all. -/
theorem parameterList_formed {rest : Place → Reading Node} {parameter : Reading (Node × Bool)}
    (hrest : ∀ place, (rest place).Gives Plain)
    (hparameter : parameter.Gives fun x => x.1.Plain) :
    (parameterList rest parameter).Gives fun params => ∀ x ∈ params, x.1.Plain := by
  refine .iterate (fun x => ∀ y ∈ x.1, y.1.Plain) (fun x hx => nomatch hx) ?_
  -- the parameters are gathered in reverse, with the place of a rest among them
  rintro ⟨acc, restAt⟩ hacc
  refine .step fun _ => .step fun _ => .ite (.done (forall_mem_reverse hacc)) ?_
  extract_lets going
  have hgoing : ∀ u, (going u).Gives (Gives.OfGathering fun x => x.1.Plain) := by
    intro _
    refine .step fun place => .step fun isRest => ?_
    extract_lets restAt' next
    have hnext : ∀ x : Node × Bool, x.1.Plain →
        (next x).Gives (Gives.OfGathering fun x => x.1.Plain) := by
      intro x hx
      have hmore : ∀ y ∈ x :: acc, y.1.Plain := List.forall_mem_cons.mpr ⟨hx, hacc⟩
      refine .step fun _ => .ite (.more hmore) ?_
      exact .step fun _ => .step fun _ => .whenAt fun _ => .more hmore
    refine .ite (.bind (hrest place) fun n hn => ?_) (.bind hparameter hnext)
    exact .bind (.pure (P := fun x => x.1.Plain) hn) hnext
  split
  · exact .step hgoing
  · exact hgoing ()

theorem formalParameters_formed :
    (formalParameters g).Gives fun params => ∀ n ∈ params, n.Plain := by
  have hparameter : Gives (do return (← formalParameter g, false))
      fun x : Node × Bool => x.1.Plain :=
    .bind (formalParameter_formed hg) fun n hn => .pure hn
  refine .bind (parameterList_formed (restParameter_formed hg) hparameter) fun params h => .pure ?_
  exact fun n hn => by
    obtain ⟨x, hx, rfl⟩ := List.mem_map.mp hn
    exact h x hx

/-! ### Type arguments and type parameters -/

/-- Type arguments in angle brackets, in a row. -/
theorem typeArguments_formed : (typeArguments g).Gives Plain := by
  refine .step fun _ => .bind (.bracketed (gives_angleList hg.type)) fun args hargs => ?_
  exact .when fun _ => .pure (plain_list_of_parts hargs)

theorem typeArguments?_formed : (typeArguments? g).Gives Plain :=
  .step fun _ => .step fun _ => .ite (typeArguments_formed hg) (.pure (by simp))

/-- A type parameter has any word for its name, and a bound and a default that may be missing. -/
theorem typeParameter_formed (owner : TypeParameterOwner) :
    (typeParameter g owner).Gives Plain := by
  refine .step fun _ => .step fun place => .bind anyBinder_formed fun name hname => ?_
  refine .bind (gives_optional hg.type plain_absent) fun bound hbound => ?_
  refine .bind (gives_optional hg.type plain_absent) fun value hvalue => ?_
  exact .pure (by simp [hname, hbound, hvalue])

theorem typeParameters?_formed (owner : TypeParameterOwner) :
    (typeParameters? g owner).Gives Plain := by
  refine .step fun _ => .step fun _ => .ite (.step fun _ => ?_) (.pure (by simp))
  refine .bind (.bracketed (gives_angleList (typeParameter_formed hg owner))) fun params h => ?_
  exact .pure (plain_list_of_parts h)

/-! ### Functions -/

/-- The parameters of a type of functions are those of functions. -/
theorem typeParams_formed : (typeParams g).Gives Plain := by
  refine .step fun _ => .bind (.bracketed (formalParameters_formed hg)) fun params hparams => ?_
  exact .when fun _ => .step fun _ => .pure (plain_list_of_parts hparams)

/-- The type of a result, which may be what a call says of an argument. If that cannot be read, a
usual type is. -/
theorem resultType_formed : (resultType g).Gives Plain := by
  refine .step fun place => ?_
  extract_lets stated predicate
  -- a predicate is tried before a type, for both start with a name
  have hstated : ∀ asserts, (stated asserts).Gives Plain := by
    intro asserts
    refine .step fun t => .step fun _ => ?_
    extract_lets rest
    have hrest : ∀ subject : Node, subject.Plain → (rest subject).Gives Plain := by
      intro subject hsubject
      refine .step fun _ => .step fun _ => .ite (.step fun _ => ?_) ?_
      · exact .bind hg.type fun type htype => .pure (by simp [hsubject, htype])
      · exact .ite (.pure (by simp [hsubject])) .fail
    refine .ite (.bind (.pure plain_absent) hrest) (.step fun ⟨_, text⟩ => ?_)
    exact .bind (.pure (plain_leaf rfl)) hrest
  have hpredicate : predicate.Gives Plain :=
    .step fun _ => .step fun _ => .step fun _ => .step fun _ =>
      .ite (.step fun _ => .step hstated) (.step hstated)
  refine .bind (.attempt hpredicate) fun found hfound => ?_
  cases found with
  | some n => exact .pure (hfound n rfl)
  | none => exact hg.type

theorem resultAnnotation_formed : ( resultAnnotation g).Gives Plain :=
  .step fun _ => .step fun _ =>
    .ite (.step fun _ => resultType_formed hg) (.pure plain_absent)

/-- A type of functions, or of constructors, which have the same parts. -/
theorem functionType_formed {form : Form} (hform : form.isOrdinary = true) :
    (functionType g form).Gives Plain := by
  refine .step fun place => .bind (typeParameters?_formed hg _) fun generic hgeneric => ?_
  refine .bind (typeParams_formed hg) fun params hparams => .step fun _ => ?_
  refine .bind (resultType_formed hg) fun result hresult => .pure ⟨hform, ?_⟩
  simp [hparams, hgeneric, hresult]

/-! ### Members of object types -/

/-- The key of a member of an object type. A word is a name, whichever it is. -/
theorem memberKey_formed : (memberKey g).Gives IsMemberKey := by
  refine .step fun t => ?_
  extract_lets leaf
  have hleaf : ∀ form, form.isOrdinary = true → (leaf form).Gives Plain := fun form hform =>
    .step fun _ => .pure (plain_leaf hform)
  split
  · exact .step fun _ => .pure (isMemberKey_name _ _)
  · exact (hleaf _ rfl).mono fun _ => Plain.isMemberKey
  · exact (hleaf _ rfl).mono fun _ => Plain.isMemberKey
  · exact .bind (hleaf _ rfl) fun n hn => .step fun _ => .pure hn.isMemberKey
  · refine .step fun _ => .bind (.bracketed hg.assignment) fun e he => .step fun _ => ?_
    exact .pure he.isMemberKey
  · exact .fail

/-- A signature for all keys has one parameter. -/
theorem indexSignature_formed : (indexSignature g).Gives Plain := by
  refine .step fun place => .step fun _ => .step fun ⟨name, text⟩ => .step fun _ => ?_
  refine .choose fun _ => .bind hg.type fun keyType hkey => .step fun _ => ?_
  exact .bind (typeAnnotation_formed hg) fun type htype => .pure (by simp [hkey, htype])

/-- A call as a member of an object type has no key, so it is an ordinary construct. -/
theorem callSignature_formed (place : Place) : (callSignature g place).Gives Plain := by
  refine .bind (typeParameters?_formed hg _) fun generic hgeneric => ?_
  refine .bind (typeParams_formed hg) fun params hparams => ?_
  refine .bind (resultAnnotation_formed hg) fun result hresult => .pure ?_
  simp [hparams, hgeneric, hresult]

/-- A computed read or write of an object type. Of the parameters of a write the first is kept. -/
theorem accessorSignature?_formed (place : Place) :
    (accessorSignature? g place).Gives fun o => ∀ n ∈ o, n.WellFormed := by
  refine .attempt (.silently (.step fun reads => .whenNot fun _ => ?_))
  refine .bind (memberKey_formed hg) fun key hkey => ?_
  extract_lets rest
  have hrest : ∀ n : Node, n.WellFormed → (rest n).Gives WellFormed := fun n hn =>
    .step fun _ => .whenNot fun _ => .pure hn
  refine .ite (.step fun _ => .step fun _ => ?_) ?_
  · refine .bind (typeAnnotation_formed hg) fun type htype => ?_
    exact .bind (.pure (.signature rfl hkey (by simp [htype]))) hrest
  refine .bind (typeParams_formed hg) fun params hparams => .when fun _ => ?_
  refine .bind (.pure (.signature rfl hkey fun n hn => ?_)) hrest
  exact hparams.parts n (List.mem_of_mem_take hn)

/-- A property or a method of an object type. -/
theorem memberSignature_formed (place : Place) (isReadonly : Bool) :
    (memberSignature g place isReadonly).Gives WellFormed := by
  refine .bind (memberKey_formed hg) fun key hkey => .step fun _ => .step fun _ => .step fun _ => ?_
  refine .ite (.when fun _ => .bind (typeParameters?_formed hg _) fun generic hgeneric => ?_) ?_
  · refine .bind (typeParams_formed hg) fun params hparams => ?_
    refine .bind (resultAnnotation_formed hg) fun result hresult => .pure ?_
    exact .signature rfl hkey (by simp [hparams, hgeneric, hresult])
  · refine .bind (typeAnnotation_formed hg) fun type htype => .pure ?_
    exact .signature rfl hkey (by simp [htype])

/-- A member of an object type: some have a key that may be any word, so it is well-formed, but need
not be ordinary. -/
theorem typeMember_formed : (typeMember g).Gives WellFormed := by
  have hcall : ∀ place, (callSignature g place).Gives WellFormed := fun place =>
    (callSignature_formed hg place).mono fun _ => Plain.wellFormed
  refine .step fun place => .step fun _ => .step fun _ => .ite (hcall place) ?_
  refine .step fun _ => .step fun _ => .ite (.step fun _ => hcall place) ?_
  refine .step fun isReadonly => .step fun _ => .ite ?_ ?_
  · exact (indexSignature_formed hg).mono fun _ => Plain.wellFormed
  refine .ite (.bind (accessorSignature?_formed hg place) fun found hfound => ?_) ?_
  · cases found with
    | some n => exact .pure (hfound n rfl)
    | none => exact memberSignature_formed hg place _
  · exact memberSignature_formed hg place _

theorem typeMembers_formed : (typeMembers g).Gives fun nodes => ∀ n ∈ nodes, n.WellFormed := by
  refine .step fun _ => .bracketed (gives_untilClose (.bind (typeMember_formed hg) fun n hn => ?_))
  exact .step fun _ => .pure hn

/-- A type with one member for each key. -/
theorem mappedType_formed : (mappedType g).Gives Plain := by
  refine .step fun place => .step fun _ => ?_
  extract_lets signed
  refine .step fun _ => .step fun _ => .step fun name => .step fun ⟨_, text⟩ => .step fun _ => ?_
  refine .bind hg.type fun bound hbound => ?_
  refine .bind (gives_optional hg.type plain_absent) fun key hkey => .step fun _ => ?_
  refine .step fun _ => .bind (typeAnnotation_formed hg) fun type htype => ?_
  exact .step fun _ => .step fun _ => .pure (by simp [hbound, hkey, htype])

/-! ### Types -/

/-- An item of a tuple, whose label is read if a colon follows. -/
theorem tupleItem_formed : (tupleItem g).Gives fun x => x.1.Plain := by
  have hlabel : tupleLabel.Gives Plain := by
    refine .step fun _ => .bind anyBinder_formed fun name hname => ?_
    exact .step fun _ => .step fun _ => .pure hname
  refine .step fun place => .bind (.attempt (.silently hlabel)) fun found hfound => ?_
  extract_lets label node
  have hnode : ∀ type : Node, type.Plain → (node type).Plain := fun type htype => by
    simp [node, label, plain_ofOption hfound, htype]
  refine .step fun _ => .ite (.bind hg.type fun type htype => .pure (hnode _ ?_)) ?_
  · simp [htype]
  refine .bind hg.type fun type htype => .step fun _ => .ite (.pure (hnode _ ?_)) ?_
  · simp [htype]
  · exact .pure (hnode type htype)

theorem tupleType_formed (place : Place) : (tupleType g place).Gives Plain := by
  refine .bind (.bracketed (gives_commaList (tupleItem_formed hg))) fun items hitems => ?_
  refine .when fun _ => .pure (plain_of_parts rfl fun n hn => ?_)
  obtain ⟨x, hx, rfl⟩ := List.mem_map.mp hn
  exact hitems x hx

/-- The types in a template, as far as its last piece. -/
theorem templateTypes_formed : (templateTypes g).Gives fun nodes => ∀ n ∈ nodes, n.Plain := by
  refine .step fun t => .iterate (fun x => ∀ n ∈ x.1, Plain n) (fun n hn => nomatch hn) ?_
  rintro ⟨acc, cursor⟩ hacc
  dsimp only
  split
  · exact .fail
  · refine .step fun _ => .ite (.bind hg.type fun type htype => .step fun close => ?_) ?_
    · exact .when fun _ => .more (List.forall_mem_cons.mpr ⟨htype, hacc⟩)
    · exact .done (forall_mem_reverse hacc)

theorem nameArguments_formed : (nameArguments g).Gives Plain :=
  .step fun _ => .ite (.pure (by simp)) (typeArguments?_formed hg)

/-- A type that is named, with its arguments. -/
theorem typeReference_formed : (typeReference g).Gives Plain := by
  refine .step fun place => .step fun _ => .bind entityName_formed fun name hname => ?_
  refine .bind (nameArguments_formed hg) fun args hargs => .when fun _ => ?_
  exact .pure (by simp [hname, hargs])

/-- A type from another module. Its attributes are the properties of an object. -/
theorem importedType_formed (place : Place) : (importedType g place).Gives Plain := by
  refine .step fun _ => .step fun source => ?_
  extract_lets nothing rest going
  have hgoing : ∀ u, (going u).Gives Plain := by
    intro _
    refine .step fun _ => ?_
    -- the attributes are optional, and what follows them is the same
    have hrest : ∀ u (attributes : List Node), (∀ n ∈ attributes, n.WellFormed) →
        (rest u attributes).Gives Plain := by
      intro _ attributes hattributes
      refine .step fun _ => .step fun _ => .when fun _ => ?_
      refine .bind (typeArguments?_formed hg) fun args hargs => .pure ?_
      simpa [hargs] using hattributes
    have hnone : (rest () nothing).Gives Plain := hrest () nothing (by simp [nothing])
    refine .ite (.step fun _ => .ite hnone ?_) hnone
    refine .step fun _ => .step fun _ => .step fun _ => .bind hg.assignment fun object hobject => ?_
    exact .step fun _ => .step fun u => hrest u _ hobject.parts
  split
  · exact hgoing ()
  · exact .step hgoing

/-- A type that starts with a word: a keyword, the type of a variable, a type from another module,
or a name. -/
theorem wordType_formed (text : String) : (wordType g text).Gives Plain := by
  refine .step fun place => .step fun _ => ?_
  refine .ite (.step fun _ => .pure (plain_leaf rfl)) ?_
  refine .ite (.step fun _ => .pure (plain_leaf rfl)) ?_
  split
  · exact .step fun _ => .pure (plain_leaf rfl)
  · refine .step fun _ => .step fun _ => .ite (.bind hg.type fun type htype => ?_) ?_
    · exact .pure (by simp [htype])
    · refine .bind entityName_formed fun name hname => ?_
      exact .bind (nameArguments_formed hg) fun args hargs => .pure (by simp [hname, hargs])
  · exact .step fun _ => importedType_formed hg place
  · exact .when fun _ => typeReference_formed hg

/-- A type without operators. An object type is tried as a type with one member for each key
first. -/
theorem primaryType_formed : (primaryType g).Gives Plain := by
  refine .step fun t => ?_
  split
  · exact .step fun _ => .pure (plain_leaf rfl)
  · exact .step fun _ => .pure (plain_leaf rfl)
  · exact .step fun _ => .pure (plain_leaf rfl)
  · refine .step fun _ => .step fun number => ?_
    split
    · exact .pure (plain_leaf rfl)
    · exact .pure (plain_leaf rfl)
    · exact .fail
  · exact .bind (templateTypes_formed hg) fun types htypes => .pure (plain_of_parts rfl htypes)
  · refine .bind (.attempt (mappedType_formed hg)) fun found hfound => ?_
    cases found with
    | some n => exact .pure (hfound n rfl)
    | none => exact .bind (typeMembers_formed hg) fun members h => .pure ⟨rfl, h⟩
  · exact .step fun _ => tupleType_formed hg _
  · refine .step fun _ => .bind (.bracketed hg.type) fun inner hinner => .step fun _ => ?_
    exact .pure (by simp [hinner])
  · exact wordType_formed hg _
  · exact .fail

/-- A type with brackets behind it, as often as there are any. -/
theorem arrayType_formed : (arrayType g).Gives Plain := by
  refine .step fun place => .bind (primaryType_formed hg) fun first hfirst => ?_
  refine .iterate Plain hfirst fun type htype => .step fun _ => .step fun _ => ?_
  refine .ite (.step fun _ => .step fun _ => .ite (.more (by simp [htype])) ?_) (.done htype)
  exact .bind (.bracketed hg.type) fun key hkey => .step fun _ => .more (by simp [htype, hkey])

/-- A type behind operators, or a type that is to be found out, which may have a bound. -/
theorem operatorType_formed : (operatorType g).Gives Plain := by
  refine .step fun place => .step fun count => .step fun _ => .step fun _ => ?_
  extract_lets rest
  have hrest : ∀ inner : Node, inner.Plain → (rest inner).Gives Plain := by
    intro inner hinner
    refine .pure ?_
    split
    · exact hinner
    · simp [hinner]
  refine .ite (.step fun _ => .step fun name => .step fun ⟨_, text⟩ => ?_)
    (.bind (arrayType_formed hg) hrest)
  -- the bound of an inferred name is taken only where no choice follows
  have hbound : Gives (do
      expectWord "extends"
      let b ← inScope (fun s => { s with plainBounds := true }) (g ()).type
      if !(← scope).plainBounds ∧ (← at? "?") then fail
      return b) Plain := by
    refine .step fun _ => .bind (.inScope hg.type) fun b hb => .step fun _ => .step fun _ => ?_
    exact .when fun _ => .pure hb
  refine .bind (.attempt (.silently hbound)) fun found hfound => .bind (.pure ?_) hrest
  simp [plain_ofOption hfound]

omit hg in
/-- Types joined by an operator. A single type stands for itself, also behind a leading operator. -/
theorem joinedType_formed (op : String) {form : Form} (hform : form.isOrdinary = true)
    {p : Reading Node} (hp : p.Gives Plain) : (joinedType op form p).Gives Plain := by
  refine .step fun place => .step fun _ => .bind hp fun first hfirst => ?_
  refine .bind (P := fun types => ∀ n ∈ types, Plain n)
    (.iterate (fun acc => ∀ n ∈ acc, Plain n) (by simp [hfirst]) ?_) fun types htypes => ?_
  · intro acc hacc
    refine .step fun _ => .ite (.bind hp fun n hn => .more ?_) (.done (forall_mem_reverse hacc))
    exact List.forall_mem_cons.mpr ⟨hn, hacc⟩
  · split
    · exact .pure (htypes _ List.mem_cons_self)
    · exact .pure (plain_of_parts hform htypes)

/-- A type that asks for nothing: of functions, of constructors, or joined from others. -/
theorem unconditionalType_formed : (unconditionalType g).Gives Plain := by
  refine .step fun place => .step fun _ => .ite (functionType_formed hg rfl) (.step fun _ => ?_)
  extract_lets last rest
  have hlast : ∀ u, (last u).Gives Plain := by
    intro _
    refine .step fun _ => .ite (.step fun _ => ?_) ?_
    · exact .bind (functionType_formed hg rfl) fun n hn => .pure ⟨hn.form, hn.parts⟩
    · exact joinedType_formed _ rfl (joinedType_formed _ rfl (operatorType_formed hg))
  have hrest : ∀ u, (rest u).Gives Plain := fun _ => .step fun _ => .step fun _ => .when hlast
  exact .ite (.step fun _ => .ite (functionType_formed hg rfl) (hrest ())) (hrest ())

/-- **A type** is well-formed. -/
theorem typeRule_formed : (typeRule g).Gives Plain := by
  refine .step fun place => .bind (unconditionalType_formed hg) fun subject hsubject => ?_
  refine .step fun _ => .step fun _ => .step fun _ => .ite (.step fun _ => ?_) (.pure hsubject)
  refine .bind (.inScope hg.type) fun bound hbound => .step fun _ => ?_
  refine .bind (.inScope hg.type) fun yes hyes => .step fun _ => ?_
  exact .bind (.inScope hg.type) fun no hno => .pure (by simp [hsubject, hbound, hyes, hno])

end Rules

end JsxWidgets.Syntax
