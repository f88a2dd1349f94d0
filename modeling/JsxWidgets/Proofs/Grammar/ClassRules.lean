import JsxWidgets.Proofs.Grammar.TypeRules
import JsxWidgets.Syntax.Grammar.Classes

/-!
# What the rules for functions and classes give

A function is made of parameters, statements and types, and a class of its parents and members. The
parents of an interface and the interfaces of a class are dotted names of any words; all else is
made of ordinary constructs.
-/

namespace JsxWidgets.Syntax

open Reading Node

section Rules

variable {g : Rules} (hg : (g ()).IsFormed)
include hg

/-! ### Functions -/

/-- Statements in braces. -/
theorem statements_formed : (statements g).Gives fun nodes => ∀ n ∈ nodes, n.Plain :=
  .step fun _ => .bracketed (gives_untilBrace (hg.statement true))

theorem body_formed : (body g).Gives Plain :=
  .step fun _ => .bind (statements_formed hg) fun _ hcode => .pure (plain_of_parts rfl hcode)

/-- The body of a function is missing where the function only states its type. -/
theorem functionBody_formed (isAsync isGenerator : Bool) (params : List Node) (name : Place) :
    (functionBody g isAsync isGenerator params name).Gives Plain := by
  refine .step fun _ => .step fun _ => .step fun _ => .when fun _ => .inScope ?_
  refine .step fun _ => .step fun _ => ?_
  extract_lets rest
  have hrest : ∀ u, (rest u).Gives Plain := fun _ =>
    .bind (body_formed hg) fun code hcode => .step fun _ => .pure hcode
  exact .ite (.step fun _ => .ite (.pure plain_absent) (hrest ())) (hrest ())

/-- A function and its parts, of which setters take the parameters apart. -/
theorem functionRest_formed (isAsync isGenerator : Bool) {parameters : Reading (List Node)}
    (hparameters : parameters.Gives fun params => ∀ n ∈ params, n.Plain) (name : Place) :
    (functionRest g isAsync isGenerator parameters name).Gives
      fun fn => fn.Plain ∧ ∀ part ∈ fn.parts, part.Plain := by
  refine .step fun place => .inScope ?_
  refine .bind (typeParameters?_formed hg _) fun generic hgeneric => .step fun _ => ?_
  refine .bind (.inScope (.bracketed hparameters)) fun params hparams => .step fun _ => ?_
  refine .bind (resultAnnotation_formed hg) fun result hresult => ?_
  refine .bind (functionBody_formed hg _ _ _ _) fun code hcode => .when fun _ => ?_
  have hparts : ∀ part ∈ [list params, code, generic, result], part.Plain := by
    simp only [List.forall_mem_cons]
    exact ⟨plain_list_of_parts hparams, hcode, hgeneric, hresult, by simp⟩
  exact .pure ⟨plain_of_parts rfl hparts, hparts⟩

theorem functionExpression_formed : (functionExpression g).Gives Plain := by
  refine .step fun place => .step fun ⟨isAsync, isGenerator⟩ => ?_
  refine .bind (.inScope binder?_formed) fun name hname => ?_
  refine .bind (.inScope (functionRest_formed hg _ _ (formalParameters_formed hg) _))
    fun fn hfn => ?_
  split
  · exact .fail
  · exact .pure (by simp [hname, hfn.1])

/-- A function as a declaration has a name. -/
theorem functionDeclaration_formed : (functionDeclaration g).Gives Plain := by
  refine .step fun place => .step fun ⟨isAsync, isGenerator⟩ => ?_
  refine .bind binder_formed fun name hname => ?_
  refine .bind (.inScope (functionRest_formed hg _ _ (formalParameters_formed hg) _))
    fun fn hfn => .pure ?_
  simp [hname, hfn.1]

theorem getterParameters_formed (place : Place) :
    (getterParameters g place).Gives fun params => ∀ n ∈ params, n.Plain :=
  .bind (formalParameters_formed hg) fun _ hparams => .whenNot fun _ => .pure hparams

/-- The parameters of a computed write. That there has to be one is checked and reported only. -/
theorem setterParameters_formed (place : Place) :
    (setterParameters g place).Gives fun params => ∀ n ∈ params, n.Plain := by
  refine .bind (formalParameters_formed hg) fun params hparams => .when fun _ => ?_
  split
  · exact .step fun _ => .pure hparams
  · exact .pure hparams

/-! ### Members of classes -/

/-- The key of a member of a class, which may be private. -/
theorem classKey_formed : (classKey g).Gives Plain := by
  refine .step fun t => ?_
  split
  · exact .step fun _ => .when fun _ => .pure (plain_leaf rfl)
  · exact propertyKey_formed hg

/-- A field behind its key. The checks of its modifiers report, but do not change what is built. -/
theorem fieldRest_formed (m : Modifiers) {key : Node} (hkey : key.Plain) (isOptional : Bool) :
    (fieldRest g m key isOptional).Gives Plain := by
  unfold fieldRest
  refine .when fun _ => ?_
  extract_lets typed hidden abstracted
  -- the three parts of the rule share their ends, so the last of them comes first
  have htyped : ∀ u, (typed u).Gives Plain := by
    intro _
    refine .bind (typeAnnotation_formed hg) fun type htype => .inScope ?_
    refine .bind (gives_optional hg.assignment plain_absent) fun value hvalue => .step fun _ => ?_
    have hdone : Gives (pure ⟨if m.isAccessor then .accessor else .field, m.place,
        [key, value, type]⟩) Plain := by
      split <;> exact .pure (by simp [hkey, hvalue, htype])
    extract_lets done checked
    have hchecked : ∀ u, (checked u).Gives Plain := fun _ =>
      .ite hdone (.ite (.when fun _ => hdone) (.when fun _ => hdone))
    exact .ite (hchecked ()) (.step fun _ => .step hchecked)
  have hhidden : ∀ u, (hidden u).Gives Plain := fun _ => .step fun _ => .when htyped
  exact .ite (.when fun _ => .when hhidden) (hhidden ())

/-- A method behind its key. Of the function that is read, the checks look at the body only. -/
theorem methodRest_formed (m : Modifiers) {key : Node} (hkey : key.Plain)
    (isAsync isGenerator : Bool) {parameters : Reading (List Node)}
    (hparameters : parameters.Gives fun params => ∀ n ∈ params, n.Plain) :
    (methodRest g m key isAsync isGenerator parameters).Gives Plain := by
  refine .bind (.inScope (functionRest_formed hg _ _ hparameters _)) fun fn hfn => ?_
  have hdone : Gives (pure ⟨.method, m.place, [key, fn]⟩) Plain := .pure (by simp [hkey, hfn.1])
  refine .ite (.when fun _ => hdone) ?_
  split
  · exact .when fun _ => hdone
  · exact hdone

/-- A parameter of a constructor, which may be a field too. -/
theorem constructorParameter_formed :
    (constructorParameter g).Gives fun x => x.1.Plain := by
  refine .step fun _ => .step fun _ => .step fun _ => ?_
  refine .bind (formalParameter_formed hg) fun n hn => .ite (.pure hn) ?_
  split
  · exact .pure hn
  · exact .pure hn
  · exact .fail

theorem constructorRestParameter_formed (place : Place) :
    (constructorRestParameter g place).Gives Plain := by
  refine .bind hg.pattern fun inner hinner => ?_
  exact .bind (typeAnnotation_formed hg) fun type htype => .pure (by simp [hinner, htype])

/-- A constructor keeps its parameters in a row, without saying which of them are fields. -/
theorem constructorRest_formed (m : Modifiers) (key : Node) :
    (constructorRest g m key).Gives Plain := by
  refine .step fun typed => .when fun _ => .step fun _ => .when fun _ => .step fun _ => ?_
  refine .bind (.bracketed (parameterList_formed (constructorRestParameter_formed hg)
    (constructorParameter_formed hg))) fun params hparams => ?_
  refine .step fun _ => .step fun _ => .whenAt fun _ => ?_
  refine .bind (functionBody_formed hg _ _ _ _) fun code hcode => ?_
  -- the parameters carry a place each, and only the nodes are kept
  have hdone : Gives (pure ⟨.maker, m.place, [.list (params.map (·.1)), code]⟩) Plain := by
    have hnodes : ∀ n ∈ params.map (·.1), n.Plain := fun n hn => by
      obtain ⟨x, hx, rfl⟩ := List.mem_map.mp hn
      exact hparams x hx
    exact .pure (by simp [hcode, plain_list_of_parts hnodes])
  extract_lets last checked rest
  have hchecked : ∀ u, (checked u).Gives Plain := by
    intro _
    unfold checked
    split
    · exact .when fun _ => hdone
    · exact hdone
  have hrest : ∀ u, (rest u).Gives Plain := by
    intro _
    unfold rest
    split
    · exact .step hchecked
    · exact hchecked ()
  exact .ite (.step fun _ => .step hrest) (hrest ())

theorem initializer_formed (m : Modifiers) : (initializer g m).Gives Plain :=
  .bind (.inScope (body_formed hg)) fun _ hcode => .pure (by simp [hcode])

/-- A method that may wait. -/
theorem asyncMember_formed (m : Modifiers) : (asyncMember g m).Gives Plain := by
  refine .step fun _ => .whenAt fun _ => .step fun _ => ?_
  refine .bind (classKey_formed hg) fun key hkey => .when fun _ => .when fun _ => .step fun _ => ?_
  exact .when fun _ => methodRest_formed hg m hkey _ _ (formalParameters_formed hg)

/-- A computed read or write is a method with a name of its own. -/
theorem accessorMember_formed (m : Modifiers) (reads : Bool) (place : Place) :
    (accessorMember g m reads place).Gives Plain := by
  refine .bind (classKey_formed hg) fun key hkey => .when fun _ => .when fun _ => ?_
  refine methodRest_formed hg m hkey _ _ ?_
  split
  · exact getterParameters_formed hg place
  · exact setterParameters_formed hg place

/-- The initializer of a class, told by a brace behind its word. -/
theorem initializer?_formed (m : Modifiers) :
    (initializer? g m).Gives fun o => ∀ n ∈ o, n.Plain := by
  have hsome : Gives (do return some (← initializer g m)) fun o => ∀ n ∈ o, n.Plain :=
    .bind (initializer_formed hg m) fun n hn => .pure (by simpa using hn)
  refine .step fun _ => .ite (.step fun _ => .whenAt fun _ => hsome) ?_
  refine .step fun _ => .step fun _ => .ite (.step fun _ => .step fun _ => .step fun _ => hsome) ?_
  exact .pure (by simp)

/-- A member behind its modifiers. Which kind it is depends on what stands behind its key. -/
theorem memberRest_formed (m : Modifiers) : (memberRest g m).Gives Plain := by
  refine .bind (initializer?_formed hg m) fun found hfound => ?_
  extract_lets rest
  -- a key may start a method, a field, an accessor or the constructor
  have hkeyed : ∀ u, (rest u).Gives Plain := by
    refine fun _ => .step fun _ => .ite ?_ ?_
    · refine .bind (classKey_formed hg) fun key hkey => .when fun _ => .when fun _ => ?_
      exact methodRest_formed hg m hkey _ _ (formalParameters_formed hg)
    refine .bind (classKey_formed hg) fun key hkey => .step fun _ => .choose fun isOptional => ?_
    refine .step fun _ => .ite ?_ (.step fun t => .step fun _ => .ite ?_ ?_)
    · extract_lets called checked
      have hcalled : ∀ u, (called u).Gives Plain := fun _ =>
        .ite (constructorRest_formed hg m key)
          (methodRest_formed hg m hkey _ _ (formalParameters_formed hg))
      have hchecked : ∀ u, (checked u).Gives Plain := fun _ => .when hcalled
      split
      · exact .step hchecked
      · exact hchecked ()
    · exact accessorMember_formed hg m _ _
    · refine .step fun _ => .ite (fieldRest_formed hg m hkey _) ?_
      exact .ite (asyncMember_formed hg m) .fail
  cases found with
  | some n => exact .pure (hfound n rfl)
  | none =>
    refine .step fun _ => .ite (.step fun _ => .ite ?_ (hkeyed ())) (hkeyed ())
    refine .bind (indexSignature_formed hg) fun n hn => .step fun _ => .pure ?_
    exact ⟨rfl, hn.parts⟩

/-- A member whose name is a word that could have been a modifier. -/
theorem memberNamed?_formed (m : Modifiers) {key : Node} (hkey : key.Plain)
    (mayBreak mayBeOptional : Bool) :
    (memberNamed? g m key mayBreak mayBeOptional).Gives fun o => ∀ n ∈ o, n.Plain := by
  refine .step fun _ => .ite ?_ (.step fun _ => .choose fun _ => .step fun _ => .ite ?_ ?_)
  · refine .bind (methodRest_formed hg m hkey _ _ (formalParameters_formed hg)) fun n hn => ?_
    exact .pure (by simpa using hn)
  · exact .bind (fieldRest_formed hg m hkey _) fun n hn => .pure (by simpa using hn)
  · exact .pure (by simp)

/-- A word that names a member after all ends the reading. -/
theorem memberNamedOr_formed (m : Modifiers) (word : String) (place : Place)
    (mayBreak mayBeOptional : Bool) {rest : Reading (Node × Bool)}
    (hrest : rest.Gives fun x => x.1.Plain) :
    Gives (do
      match ← memberNamed? g m (.leaf (.word word) place) mayBreak mayBeOptional with
      | some n => return (n, false)
      | none => rest) fun x : Node × Bool => x.1.Plain := by
  refine .bind (memberNamed?_formed hg m (plain_leaf rfl) _ _) fun found hfound => ?_
  cases found with
  | some n => exact .pure (hfound n rfl)
  | none => exact hrest

/-- A member behind the words that only files with types have. Each word may turn out to be the name
of the member. -/
theorem classMemberRest_formed (m : Modifiers) :
    (classMemberRest g m).Gives fun x => x.1.Plain := by
  refine .step fun typed => .step fun staticAt => .choose fun accessorAt => ?_
  beta_reduce
  extract_lets key m' last rest
  -- a modifier is read as a name when no member follows it
  have hlast : ∀ u, (last u).Gives fun x => x.1.Plain := by
    refine fun _ => .step fun m => .step fun _ => .choose fun eaten => ?_
    exact .bind (memberRest_formed hg _) fun n hn => .pure hn
  have hrest : ∀ u, (rest u).Gives fun x => x.1.Plain := by
    intro _
    unfold rest
    split
    · exact memberNamedOr_formed hg _ _ _ _ _ (hlast ())
    · exact hlast ()
  split
  · exact memberNamedOr_formed hg _ _ _ _ _ (hrest ())
  · exact hrest ()

/-- **A member of a class** is an ordinary construct, whatever modifiers stand in front of it. -/
theorem classMember_formed : (classMember g).Gives fun x => x.1.Plain := by
  refine .step fun place => .step fun typed => .choose fun declareFirst => .step fun access => ?_
  refine .choose fun declareAt => ?_
  beta_reduce
  extract_lets m rest
  have hrest : ∀ u, (rest u).Gives fun x => x.1.Plain := fun _ => classMemberRest_formed hg _
  split
  · exact memberNamedOr_formed hg _ _ _ _ _ (hrest ())
  · exact hrest ()

/-! ### Classes -/

/-- A dotted name grows by one well-formed selector after another. -/
theorem heritage_formed : (heritage g).Gives WellFormed := by
  let IsName : Node → Prop := fun e =>
    ∃ selectors, e.IsDottedName selectors ∧ ∀ n ∈ selectors, n.WellFormed
  refine .step fun ⟨place, text⟩ => .bind (P := IsName) ?_ ?_
  · refine .iterate IsName ⟨[], .word text place, fun _ h => nomatch h⟩ ?_
    rintro e ⟨selectors, hname, hselectors⟩
    have hmore : ∀ (p : Place) (selector : Node), selector.WellFormed →
        IsName ⟨.member, p, [e, selector]⟩ := fun p selector hselector =>
      ⟨_, .access hname, List.forall_mem_cons.mpr ⟨hselector, hselectors⟩⟩
    refine .step fun _ => .ite (.step fun ⟨p, text⟩ => .more (hmore _ _ (by simp))) ?_
    refine .step fun p => .step fun _ => .ite ?_ (.done ⟨selectors, hname, hselectors⟩)
    refine .bind (.bracketed hg.expression) fun key hkey => .step fun _ => .more ?_
    exact hmore _ _ (by simp [hkey])
  · rintro e ⟨selectors, hname, hselectors⟩
    refine .bind (typeArguments?_formed hg) fun args hargs => .pure ?_
    exact .heritage hname hselectors hargs.wellFormed

/-- Parents or interfaces, in a row. -/
theorem heritages_formed : (heritages g).Gives Plain := by
  unfold heritages
  extract_lets atListEnd
  refine .bind (P := fun nodes => ∀ n ∈ nodes, n.WellFormed)
    (.iterate (fun acc => ∀ n ∈ acc, n.WellFormed) (fun n hn => nomatch hn) fun acc hacc => ?_)
    fun nodes hnodes => .pure (plain_list.mpr hnodes)
  refine .step fun _ => .ite (.done (forall_mem_reverse hacc)) ?_
  refine .bind (heritage_formed hg) fun n hn => .step fun _ => ?_
  have hmore : ∀ b ∈ n :: acc, b.WellFormed := List.forall_mem_cons.mpr ⟨hn, hacc⟩
  refine .ite (.more hmore) (.step fun _ => .whenNot fun _ => .done (forall_mem_reverse hmore))

/-- The members of a class in a row, with the places of the abstract ones beside them. -/
theorem classMembers_formed : (classMembers g).Gives fun x => x.1.Plain := by
  refine .step fun _ => .bind (P := fun x => ∀ n ∈ x.1, Plain n) (.inScope ?_) ?_
  · refine .iterate (fun x => ∀ n ∈ x.1, Plain n) (fun n hn => nomatch hn) ?_
    rintro ⟨acc, abstracts, made⟩ hacc
    refine .step fun _ => .step fun _ => .ite (.done (forall_mem_reverse hacc)) ?_
    refine .step fun _ => .ite (.more hacc) ?_
    refine .bind (classMember_formed hg) fun ⟨n, isAbstract⟩ hn => ?_
    have hmore : ∀ b ∈ n :: acc, Plain b := List.forall_mem_cons.mpr ⟨hn, hacc⟩
    dsimp only
    split
    · exact .step fun _ => .ite (.more hmore) (.when fun _ => .more hmore)
    · exact .more hmore
  · rintro ⟨members, abstracts⟩ hmembers
    have hdone : Gives (pure (list members, abstracts)) fun x => x.1.Plain :=
      .pure (plain_list_of_parts hmembers)
    exact .step fun _ => .ite (.step fun _ => .step fun _ => hdone) (.step fun _ => hdone)

/-- The parent of a class and its type arguments. If both have been read together they are taken
apart again, and then are known to be well-formed only. -/
theorem parentClass_formed : (parentClass g).Gives fun x => x.1.WellFormed ∧ x.2.WellFormed := by
  refine .bind hg.access fun parent hparent => ?_
  split
  · exact .pure (by simpa using hparent)
  · refine .step fun _ => ?_
    extract_lets rest
    have hrest : ∀ args : Node, args.Plain →
        (rest args).Gives fun x => x.1.WellFormed ∧ x.2.WellFormed :=
      fun args hargs => .pure ⟨hparent.wellFormed, hargs.wellFormed⟩
    exact .either (typeArguments?_formed hg) (.pure (by simp)) hrest

/-- What stands between the name of a class and its members. What is read a second time is reported
and dropped, but for a parent that comes late. -/
theorem classHeritage_formed : (classHeritage g).Gives
    fun x => x.1.WellFormed ∧ x.2.1.WellFormed ∧ x.2.2.WellFormed := by
  refine .step fun typed => .step fun extended => ?_
  extract_lets behind
  -- whatever stands behind the parent leaves it and the interfaces as they are
  have hbehind : ∀ x : Node × Node, x.1.WellFormed ∧ x.2.WellFormed →
      (behind x).Gives fun x => x.1.WellFormed ∧ x.2.1.WellFormed ∧ x.2.2.WellFormed := by
    rintro ⟨parent, args⟩ ⟨hparent, hargs⟩
    refine .step fun _ => ?_
    extract_lets going rest
    have hgoing : ∀ interfaces : Node, interfaces.Plain → (going interfaces).Gives
        fun x => x.1.WellFormed ∧ x.2.1.WellFormed ∧ x.2.2.WellFormed := by
      intro interfaces hinterfaces
      have hdone : Gives (pure (parent, args, interfaces))
          fun x => x.1.WellFormed ∧ x.2.1.WellFormed ∧ x.2.2.WellFormed :=
        .pure ⟨hparent, hargs, hinterfaces.wellFormed⟩
      refine .step fun _ => ?_
      extract_lets done last
      have hlast : ∀ u, (last u).Gives
          fun x => x.1.WellFormed ∧ x.2.1.WellFormed ∧ x.2.2.WellFormed := by
        refine fun _ => .step fun _ => .ite (.step fun _ => .step fun _ => ?_) hdone
        refine .bind (parentClass_formed hg) fun ⟨late, lateArgs⟩ hlate => ?_
        exact .ite (.pure ⟨hlate.1, hlate.2, hinterfaces.wellFormed⟩) hdone
      exact .ite (.step fun _ => .step fun _ => .step hlast) (hlast ())
    have hrest : ∀ u, (rest u).Gives
        fun x => x.1.WellFormed ∧ x.2.1.WellFormed ∧ x.2.2.WellFormed :=
      fun _ => .ite (.pure ⟨hparent, hargs, by simp⟩)
        (.step fun _ => .either (heritages_formed hg) (.pure (by simp)) hgoing)
    exact .ite (.step fun _ => .step fun _ => .step hrest) (hrest ())
  refine .ite (.bind (parentClass_formed hg) fun found hfound => ?_)
    (.bind (.pure (by simp)) hbehind)
  have hfound' : Gives (do behind (← pure found)) _ := .bind (.pure hfound) hbehind
  exact .ite (.step fun _ => .ite (.step fun _ => .step fun _ => hfound') hfound') hfound'

/-- A class behind its name: its members are read last and stand first. -/
theorem classRest_formed (isAbstract : Bool) (name : Node) :
    (classRest g isAbstract name).Gives Plain := by
  refine .step fun place => ?_
  extract_lets rest
  have hrest : ∀ u, (rest u).Gives Plain := by
    refine fun _ => .inScope (.bind (typeParameters?_formed hg _) fun generic hgeneric => ?_)
    refine .bind (classHeritage_formed hg) ?_
    rintro ⟨parent, args, interfaces⟩ ⟨hparent, hargs, hints⟩
    refine .bind (.inScope (classMembers_formed hg)) fun ⟨members, abstracts⟩ hmembers => ?_
    have hdone : Gives (pure ⟨.cls, place, [members, parent, generic, args, interfaces]⟩) Plain :=
      .pure (by simp [Plain.wellFormed hmembers, hparent, hgeneric, hargs, hints])
    exact .ite hdone (.step fun _ => hdone)
  split
  · exact .step fun _ => .when hrest
  · exact hrest ()

theorem classExpression_formed : (classExpression g).Gives Plain := by
  refine .step fun place => .step fun _ => .bind binder?_formed fun name hname => ?_
  exact .bind (classRest_formed hg _ _) fun cls hcls => .pure (by simp [hname, hcls])

theorem classDeclaration_formed : (classDeclaration g).Gives Plain := by
  refine .step fun place => .step fun _ => .choose fun isAbstract => .step fun _ => ?_
  refine .step fun _ => .when fun _ => .bind binder_formed fun name hname => ?_
  exact .bind (classRest_formed hg _ _) fun cls hcls => .pure (by simp [hname, hcls])

end Rules

end JsxWidgets.Syntax
