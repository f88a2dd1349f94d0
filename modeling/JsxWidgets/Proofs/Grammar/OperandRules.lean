import JsxWidgets.Proofs.Grammar.ClassRules
import JsxWidgets.Syntax.Grammar.Literals

/-!
# What the rules for targets, operators and literals give

An expression that is read again as a pattern keeps parts of it as values of the pattern. What is
assigned to is a name, a pattern, or a node of its own around one of the expressions that can be
assigned to; calls are not among them. Operators and literals are made of expressions.
-/

namespace JsxWidgets.Syntax

open Reading Node

/-! ### Patterns -/

/-- What stays as it is in a pattern may have any parts. -/
theorem Form.isOrdinary_of_staysInPattern {form : Form} (h : form.staysInPattern = true) :
    form.isOrdinary = true := by
  cases form <;> first | rfl | cases h

section Patterns

variable (commas : List (Place × Place)) (role : PatternRole)

/-- **A pattern that an expression is read as** is an ordinary construct. The induction follows the
four functions that read an expression again. -/
theorem rereading_formed :
    (∀ e : Node, e.WellFormed → ∀ x, e.asPattern commas role = some x → x.1.Plain) ∧
    (∀ comma properties, (∀ n ∈ properties, n.WellFormed) →
      ∀ x, propertiesAsPattern commas role comma properties = some x → ∀ n ∈ x.1, n.Plain) ∧
    (∀ comma property, property.WellFormed →
      ∀ x, propertyAsPattern commas role comma property = some x → x.1.Plain) ∧
    (∀ comma items, (∀ n ∈ items, n.WellFormed) →
      ∀ x, itemsAsPattern commas role comma items = some x → ∀ n ∈ x.1, n.Plain) := by
  apply Node.asPattern.mutual_induct commas role
  -- Expressions.
  case case1 =>
    intro _ _ _ _ hx
    cases hx
    exact plain_leaf rfl
  case case2 =>
    intro p value t q parts h x hx
    cases hx
    have hparts := (wellFormed_mk rfl).mp h
    simp [hparts value (by simp)]
  case case3 =>
    intro p value q e h x hx
    cases hx
    have hparts := (wellFormed_mk rfl).mp h
    simp [hparts value (by simp), (hparts _ List.mem_cons_self).of_target.2]
  case case4 =>
    intro p value pattern hbinder htarget h x hx
    rw [asPattern.eq_4 _ _ _ _ _ hbinder htarget] at hx
    cases hx
    exact ⟨rfl, (wellFormed_mk rfl).mp h⟩
  case case5 =>
    intro t p parts _ x hx
    cases hx
    simp
  case case6 =>
    intro p items ih h x hx
    obtain ⟨y, hy, rfl⟩ := Option.map_eq_some_iff.mp hx
    have hitems := ih ((wellFormed_mk rfl).mp h) y hy
    simpa using wellFormed_of_plain hitems
  case case7 =>
    intro p properties ih h x hx
    obtain ⟨y, hy, rfl⟩ := Option.map_eq_some_iff.mp hx
    have hproperties := ih ((wellFormed_mk rfl).mp h) y hy
    simpa using wellFormed_of_plain hproperties
  case case8 =>
    intro form p parts hinvalid hassign hname harray hobject hstays h x hx
    rw [asPattern.eq_8 _ _ _ _ _ hinvalid hassign hname harray hobject, if_pos hstays] at hx
    cases hx
    have hform := Form.isOrdinary_of_staysInPattern ((Bool.and_eq_true _ _).mp hstays).2
    exact ⟨hform, h.parts hform⟩
  case case9 =>
    intro form p parts hinvalid hassign hname harray hobject hstays _ x hx
    rw [asPattern.eq_8 _ _ _ _ _ hinvalid hassign hname harray hobject, if_neg hstays] at hx
    cases hx
    exact plain_leaf rfl
  -- Properties.
  case case10 =>
    intro comma p key value ih h x hx
    obtain ⟨y, hy, rfl⟩ := Option.map_eq_some_iff.mp hx
    have hparts := (wellFormed_mk rfl).mp h
    simp [hparts key (by simp), ih (hparts value (by simp)) y hy]
  case case11 =>
    intro comma t p parts _ x hx
    cases hx
    simp
  case case12 =>
    intro comma t p value h x hx
    cases hx
    exact ⟨rfl, (wellFormed_mk rfl).mp h⟩
  case case13 =>
    intro comma p e hrole t hform _ x hx
    simp only [propertyAsPattern, hrole, hform] at hx
    cases hx
    simp
  case case14 =>
    intro comma p e hrole hform _ x hx
    simp only [propertyAsPattern, hrole] at hx
    cases hx
    simp [Node.invalid]
  case case15 =>
    intro comma p e hrole ih h x hx
    simp only [propertyAsPattern, hrole] at hx
    obtain ⟨y, hy, rfl⟩ := Option.map_eq_some_iff.mp hx
    have he : e.WellFormed := (wellFormed_mk rfl).mp h e (by simp)
    simp [ih he y (hrole ▸ hy)]
  case case16 =>
    intro property comma hkeyed hshorthand hdefaulted hspread _ x hx
    rw [propertyAsPattern.eq_6 _ _ _ _ hkeyed hshorthand hdefaulted hspread] at hx
    cases hx
  case case17 =>
    intro comma _ x hx
    cases hx
    simp
  case case18 =>
    intro comma property rest n faults ns more hrest hproperty ihproperty ihrest h x hx
    simp only [propertiesAsPattern, hproperty, hrest] at hx
    cases hx
    have hn := ihproperty (h property List.mem_cons_self) _ hproperty
    have hns := ihrest (fun n hn => h n (List.mem_cons_of_mem _ hn)) _ hrest
    exact List.forall_mem_cons.mpr ⟨hn, hns⟩
  case case19 =>
    intro comma property rest hnone _ _ _ x hx
    unfold propertiesAsPattern at hx
    split at hx
    · exact (hnone _ _ _ _ ‹_› ‹_›).elim
    · cases hx
  -- Items.
  case case20 =>
    intro comma _ x hx
    cases hx
    simp
  case case21 =>
    intro comma p e ih h x hx
    obtain ⟨y, hy, rfl⟩ := Option.map_eq_some_iff.mp hx
    have he : e.WellFormed := (wellFormed_mk rfl).mp (h _ List.mem_cons_self) e (by simp)
    simp [ih he y hy]
  case case22 =>
    intro comma p parts rest hlast ih h x hx
    rw [itemsAsPattern.eq_3 _ _ _ _ _ _ hlast] at hx
    obtain ⟨y, hy, rfl⟩ := Option.map_eq_some_iff.mp hx
    exact ih (fun n hn => h n (List.mem_cons_of_mem _ hn)) y hy
  case case23 =>
    intro comma place e rest n faults ns more hrest hitem ihitem ihrest h x hx
    simp only [itemsAsPattern, hitem, hrest] at hx
    cases hx
    have he : e.WellFormed := (wellFormed_mk rfl).mp (h _ List.mem_cons_self) e (by simp)
    have hns := ihrest (fun n hn => h n (List.mem_cons_of_mem _ hn)) _ hrest
    exact List.forall_mem_cons.mpr ⟨ihitem he _ hitem, hns⟩
  case case24 =>
    intro comma place e rest hnone _ _ _ x hx
    simp only [itemsAsPattern] at hx
    cases hx
  case case25 =>
    intro comma head rest hlast hspread hitem ih h x hx
    rw [itemsAsPattern.eq_5 _ _ _ _ _ hlast hspread hitem] at hx
    obtain ⟨y, hy, rfl⟩ := Option.map_eq_some_iff.mp hx
    have hns := ih (fun n hn => h n (List.mem_cons_of_mem _ hn)) y hy
    dsimp only
    split
    · simp
    · exact List.forall_mem_cons.mpr ⟨plain_absent, hns⟩

/-- An expression that is read again as a pattern. -/
theorem rereadAs_formed {e : Node} (he : e.WellFormed) : (rereadAs role e).Gives Plain := by
  refine .step fun s => ?_
  split
  · next pattern faults heq =>
    exact .step fun _ => .pure ((rereading_formed _ role).1 e he (pattern, faults) heq)
  · exact .failWith _ _

end Patterns

/-! ### Targets -/

/-- The target of a loop over keys or values is a pattern, a name, or the expression itself. -/
theorem loopTarget_formed {e : Node} (he : e.Plain) : (loopTarget e).Gives Plain := by
  unfold loopTarget
  split
  · exact rereadAs_formed _ he.wellFormed
  · exact rereadAs_formed _ he.wellFormed
  · exact .pure he
  · refine .step fun _ => ?_
    split
    · exact .pure (by simp)
    · exact .pure he

/-- What can be assigned to is put into a node of its own, and nothing else is. -/
theorem assigned_formed {e : Node} (he : e.WellFormed) {form : Form} (hform : e.form = form) :
    Gives (if form.isTarget then pure ⟨.target, e.place, [e]⟩ else failWith .invalidTarget e.place)
      WellFormed := by
  split
  · next htarget => exact .pure (.target (hform ▸ htarget) he)
  · exact .failWith _ _

/-- What a plain assignment assigns to: a name, a pattern, or a node of its own around an
expression. -/
theorem plainTarget_formed {e : Node} (he : e.Plain) : (plainTarget e).Gives WellFormed := by
  refine .bind (loopTarget_formed he) fun n hn => ?_
  split
  · exact .pure (wellFormed_leaf rfl)
  · split
    · exact .pure hn.wellFormed
    · exact .pure hn.wellFormed
    · exact .pure hn.wellFormed
    · exact assigned_formed hn.wellFormed rfl

/-- What an assignment with an operator assigns to: a name, or a node of its own around an
expression. -/
theorem combinedTarget_formed {e : Node} (he : e.Plain) :
    (combinedTarget e).Gives WellFormed := by
  refine .step fun typed => .whenNot fun _ => .when fun _ => ?_
  split
  · exact .pure (wellFormed_leaf rfl)
  · exact assigned_formed he.wellFormed rfl

/-! ### Parameters of arrow functions -/

/-- A parameter that an item in parentheses is. What takes all that is left is reported and
dropped. -/
theorem parameterOf?_formed {item : Node} (hitem : item.Plain) :
    (parameterOf? item).Gives fun o => ∀ n ∈ o, n.Plain := by
  unfold parameterOf?
  split
  · refine .bind (rereadAs_formed _ ?_) fun n hn => .pure (by simpa using hn)
    exact hitem.parts _ List.mem_cons_self
  · exact .ite (.step fun _ => .pure (by simp)) (.pure (by simpa using hitem))

/-- The last item may take all that is left. -/
theorem lastParameterOf_formed {item : Node} (hitem : item.Plain) (comma : Option Place) :
    (lastParameterOf item comma).Gives Plain := by
  unfold lastParameterOf
  extract_lets reportComma
  split
  · exact rereadAs_formed _ (hitem.parts _ List.mem_cons_self)
  · refine .when fun _ => .step fun _ => ?_
    refine .bind (rereadAs_formed _ (hitem.parts _ List.mem_cons_self)) fun n hn => .pure ?_
    simp [hn]
  · exact .when fun _ => .pure hitem

/-- The parameters that items in parentheses are: the last one is read in its own way. -/
theorem parametersOf_formed {items : List Node} (hitems : ∀ n ∈ items, n.Plain)
    (comma : Option Place) :
    (parametersOf items comma).Gives fun params => ∀ n ∈ params, n.Plain := by
  refine .bind (.filterMapM fun n hn => parameterOf?_formed (hitems n (List.dropLast_subset _ hn)))
    fun front hfront => ?_
  extract_lets rest
  have hrest : ∀ params, (∀ n ∈ params, n.Plain) →
      (rest params).Gives fun params => ∀ n ∈ params, n.Plain :=
    fun _ hparams => .step fun _ => .pure hparams
  split
  · next item hlast =>
    have hitem := hitems item (List.mem_of_getLast? hlast)
    refine .bind (lastParameterOf_formed hitem comma) fun last hlast => .bind (.pure ?_) hrest
    exact List.forall_mem_append.mpr ⟨hfront, by simpa using hlast⟩
  · exact .bind (.pure (by simp)) hrest

section Rules

variable {g : Rules} (hg : (g ()).IsFormed)
include hg

/-! ### Operators -/

/-- A type behind an operand is put around the operand. -/
theorem typedOperand?_formed {left : Node} (hleft : left.Plain) :
    (typedOperand? g left).Gives fun o => ∀ n ∈ o, n.Plain := by
  refine .step fun _ => .ite (.pure (by simp)) (.step fun _ => .ite ?_ (.step fun _ => .ite ?_ ?_))
  · refine .step fun _ => .step fun _ => .ite (.pure (by simp [hleft])) ?_
    exact .bind hg.type fun type htype => .pure (by simp [hleft, htype])
  · exact .bind hg.type fun type htype => .pure (by simp [hleft, htype])
  · exact .pure (by simp)

/-- An operator with its second operand. That operand takes in all operators that bind more
tightly. -/
theorem operation?_formed {left : Node} (hleft : left.Plain) (floor : Nat) :
    (operation? g left floor).Gives fun o => ∀ n ∈ o, n.Plain := by
  refine .step fun _ => ?_
  extract_lets rest
  have hrest : ∀ u, (rest u).Gives fun o => ∀ n ∈ o, n.Plain := by
    refine fun _ => .step fun _ => .step fun _ => ?_
    split
    · exact .pure (by simp)
    refine .ite (.pure (by simp)) (.step fun _ => ?_)
    extract_lets operand
    -- the right operand takes the operators that bind tighter before it is joined
    have hoperand : ∀ u, (operand u).Gives fun o => ∀ n ∈ o, n.Plain := by
      refine fun _ => .bind hg.unary fun first hfirst => ?_
      refine .bind (hg.operators first _ hfirst) fun right hright => ?_
      refine .ite (.when fun _ => .when fun _ => .pure ?_) (.pure ?_)
      · simp [hleft, hright]
      · simp [hleft, hright]
    refine .ite ?_ (hoperand ())
    split
    · exact .step hoperand
    · exact .step hoperand
    · exact hoperand ()
  refine .ite (.bind (typedOperand?_formed hg hleft) fun found hfound => ?_) (hrest ())
  cases found with
  | some n => exact .pure hfound
  | none => exact hrest ()

/-- The operators behind an operand, from left to right. -/
theorem operatorsRule_formed {first : Node} (hfirst : first.Plain) (floor : Nat) :
    (operatorsRule g first floor).Gives Plain := by
  refine .iterate Plain hfirst fun left hleft => ?_
  refine .bind (operation?_formed hg hleft floor) fun found hfound => ?_
  cases found with
  | some n => exact .step fun _ => .more (hfound n rfl)
  | none => exact .step fun _ => .done hleft

/-- An expression with operators. If the first operand cannot be read, but an operator follows, it
is something that is no expression. -/
theorem binaryRule_formed : (binaryRule g).Gives Plain := by
  refine .step fun _ => .step fun _ => .bind (.tolerate hg.unary) fun read hread => ?_
  cases read with
  | ok left => exact .ite (.pure (hread left rfl)) (operatorsRule_formed hg (hread left rfl) 0)
  | error e =>
    refine .step fun _ => .when fun _ => .step fun _ => .step fun _ => .ite ?_ (.throw e)
    exact .step fun _ => .step fun _ => operatorsRule_formed hg (plain_leaf rfl) 0

/-! ### Choices and assignments -/

/-- The two branches of a choice behind its test. -/
theorem choiceRest_formed {test : Node} (htest : test.WellFormed) :
    (choiceRest g test).Gives Plain := by
  refine .bind (.inScope hg.assignment) fun yes hyes => .step fun _ => ?_
  refine .bind (.inScope hg.assignment) fun no hno => .pure ?_
  simp [htest, hyes, hno]

/-- A choice, or the test alone. -/
theorem choiceRule_formed : (choiceRule g).Gives Plain := by
  refine .bind (binaryRule_formed hg) fun test htest => .ite (.pure htest) ?_
  exact .step fun _ => .ite (choiceRest_formed hg htest.wellFormed) (.pure htest)

/-- An assignment behind its first expression, which is read again as a target. -/
theorem assignmentRest_formed {left : Node} (hleft : left.Plain) :
    (assignmentRest g left).Gives Plain := by
  refine .step fun t => ?_
  split
  · exact .pure hleft
  · refine .either (plainTarget_formed hleft) (combinedTarget_formed hleft) fun target htarget => ?_
    refine .step fun _ => .bind hg.assignment fun value hvalue => .pure ?_
    simp [htarget, hvalue]

/-! ### Templates -/

/-- The substitutions of a template, which are carried along with the pieces between them. -/
theorem templateParts_formed : (templateParts g).Gives fun x => ∀ n ∈ x.2, n.Plain := by
  refine .step fun t => .iterate (fun x => ∀ n ∈ x.1.2, Plain n) (fun n hn => nomatch hn) ?_
  rintro ⟨⟨quasis, holes⟩, cursor⟩ hholes
  dsimp only
  split
  · exact .failWith _ _
  · refine .step fun _ => .ite ?_ (.done (forall_mem_reverse hholes))
    refine .bind (.bracketed hg.expression) fun e he => .step fun close => .when fun _ => .more ?_
    exact List.forall_mem_cons.mpr ⟨he, hholes⟩

/-- A template has its substitutions as its parts. -/
theorem template_formed : (template g).Gives Plain := by
  refine .step fun place => .bind (templateParts_formed hg) fun ⟨quasis, holes⟩ hholes => ?_
  exact .when fun _ => .pure (plain_of_parts rfl hholes)

omit hg in
/-- A regular expression has no parts, whatever its flags. -/
theorem regex_formed : regex.Gives Plain := by
  refine .step fun t => ?_
  split
  · exact .step fun _ => .throw _
  · refine .step fun _ => .step fun _ => .when fun _ => ?_
    split
    · exact .step fun _ => .pure (plain_leaf rfl)
    · exact .pure (plain_leaf rfl)

/-! ### Arrays -/

/-- An item of an array or an argument, which may be spread. -/
theorem item_formed : (item g).Gives Plain := by
  refine .step fun place => .step fun _ => .ite ?_ ?_
  · exact .bind hg.assignment fun e he => .pure (by simp [he])
  · exact .bind hg.assignment fun e he => .pure (by simp [he])

/-- The items of an array. An item that is left out is a hole. -/
theorem arrayItems_formed (place : Place) :
    (arrayItems g place).Gives fun items => ∀ n ∈ items, n.Plain := by
  refine .iterate (fun acc => ∀ n ∈ acc, Plain n) (fun n hn => nomatch hn) fun acc hacc => ?_
  refine .step fun t => .step fun _ => .ite (.done (forall_mem_reverse hacc)) ?_
  refine .step fun _ => .ite (.more (List.forall_mem_cons.mpr ⟨plain_leaf rfl, hacc⟩)) ?_
  refine .bind (item_formed hg) fun n hn => ?_
  have hmore : ∀ b ∈ n :: acc, Plain b := List.forall_mem_cons.mpr ⟨hn, hacc⟩
  exact .step fun _ => .ite (.more hmore) (.step fun _ => .step fun _ => .when fun _ => .more hmore)

/-! ### Objects -/

/-- A method of an object is a function behind its key. -/
theorem objectMethod_formed (place : Place) {key : Node} (hkey : key.Plain)
    (isAsync isGenerator : Bool) : (objectMethod g place key isAsync isGenerator).Gives Plain := by
  refine .bind (.inScope (functionRest_formed hg _ _ (formalParameters_formed hg) _))
    fun fn hfn => .pure ?_
  simp [hkey, hfn.1]

/-- A computed read keeps the body and the type of its result from the function that is read. -/
theorem objectGetter_formed (place : Place) : (objectGetter g place).Gives Plain := by
  refine .bind (propertyKey_formed hg) fun key hkey => ?_
  refine .bind (.inScope (functionRest_formed hg _ _ (getterParameters_formed hg _) _))
    fun fn hfn => ?_
  split
  · next code _ result heq =>
    have hparts := heq ▸ hfn.2
    exact .pure (by simp [hkey, hparts result (by simp), hparts code (by simp)])
  · exact .fail

/-- A computed write keeps the first two of its parameters. Where there is none, something that is
no pattern stands for it. -/
theorem objectSetter_formed (place : Place) : (objectSetter g place).Gives Plain := by
  refine .bind (propertyKey_formed hg) fun key hkey => ?_
  refine .bind (.inScope (functionRest_formed hg _ _ (setterParameters_formed hg _) _))
    fun fn hfn => ?_
  split
  · next params code _ _ heq =>
    have hparts := heq ▸ hfn.2
    have hcode : code.Plain := hparts code (by simp)
    refine .ite (.step fun _ => .pure (by simp [hkey, hcode, Node.invalid])) (.pure ?_)
    have hparams : ∀ n ∈ params.parts.take 2, n.WellFormed := fun n hn =>
      (hparts params (by simp)).parts n (List.mem_of_mem_take hn)
    simp [hkey, hcode, wellFormed_list.mpr hparams]
  · exact .fail

/-- A property whose key stands behind a word that says what kind it is. -/
theorem wordProperty_formed (place : Place) (word : String) :
    (wordProperty g place word).Gives Plain := by
  unfold wordProperty
  split
  · exact objectGetter_formed hg place
  · exact objectSetter_formed hg place
  · refine .step fun _ => .bind (propertyKey_formed hg) fun key hkey => ?_
    exact objectMethod_formed hg place hkey _ _
  · exact .fail

/-- **A property of an object** is an ordinary construct: spread, a method, with a value, a name, or
computed. -/
theorem property_formed : (property g).Gives Plain := by
  refine .step fun place => .step fun _ => .ite ?_ (.step fun _ => .ite ?_ ?_)
  · exact .bind hg.assignment fun e he => .pure (by simp [he])
  · refine .bind (propertyKey_formed hg) fun key hkey => ?_
    exact objectMethod_formed hg place hkey _ _
  refine .step fun isField => .step fun modifier => .bind (propertyKey_formed hg) fun key hkey => ?_
  refine .step fun _ => .step fun _ => .ite ?_ (.step fun _ => .ite ?_ (.step fun _ => .ite ?_ ?_))
  · exact .step fun _ => .step fun _ => .pure (by simp [hkey, Node.invalid])
  · exact .bind hg.assignment fun value hvalue => .pure (by simp [hkey, hvalue])
  · exact objectMethod_formed hg place hkey _ _
  split
  · refine .step fun _ => .whenAt fun _ => .step fun _ => .ite (.when fun _ => .step fun _ => ?_) ?_
    · exact .ite (.bind hg.assignment fun value hvalue => .pure (by simp [hvalue]))
        (.pure (plain_leaf rfl))
    · exact .when fun _ => wordProperty_formed hg place _
  · exact .fail

/-- The properties of an object, up to its closing brace. -/
theorem objectProperties_formed (place : Place) :
    (objectProperties g place).Gives fun properties => ∀ n ∈ properties, n.Plain := by
  refine .iterate (fun acc => ∀ n ∈ acc, Plain n) (fun n hn => nomatch hn) fun acc hacc => ?_
  refine .step fun _ => .ite (.done (forall_mem_reverse hacc)) ?_
  refine .bind (property_formed hg) fun n hn => ?_
  have hmore : ∀ b ∈ n :: acc, Plain b := List.forall_mem_cons.mpr ⟨hn, hacc⟩
  exact .step fun _ => .ite (.more hmore) (.step fun _ => .step fun _ => .when fun _ => .more hmore)

end Rules

end JsxWidgets.Syntax
