import JsxWidgets.Proofs.Grammar.StatementRules
import JsxWidgets.Syntax.Grammar
import Mathlib.Data.List.TakeWhile

/-!
# What is read is well-formed

The rule for markup puts attributes into opening tags, and opening tags into elements. The words of
a tag are read inside the tag, where a word ends in front of a point or a colon. With the rules for
everything else this gives that whatever a grammar reads is well-formed (`isFormed_grammar`), and so
are the items of every module that is read (`Module.wellFormed_of_read?`). In particular its markup
is in its place (`Module.wellMarked_of_read?`).
-/

namespace JsxWidgets.Syntax

open Reading Node

/-! ### Words inside tags -/

/-- A state inside a tag: the word that stands next, if there is one, is a word of a tag. -/
def ReadState.InTag (s : ReadState) : Prop :=
  ∀ text, s.token.kind = .word text → isTagWord text = true

/-- The characters of a word in a tag are those of identifiers and the hyphen. -/
theorem isTagWord_ofList {chars : List Char}
    (h : ∀ c ∈ chars, (Text.isIdentifierPart c || c = '-') = true) :
    isTagWord (String.ofList chars) = true := by
  rw [isTagWord, String.toList_ofList, List.all_eq_true]
  intro c hc
  have hpart := h c hc
  rw [Bool.and_eq_true, decide_eq_true_iff, decide_eq_true_iff]
  constructor
  · rintro rfl
    exact absurd hpart (by decide)
  · rintro rfl
    exact absurd hpart (by decide)

/-- A quoted value is no word. -/
theorem kind_readAttributeBody (quote : Char) (fuel : Nat) (c : Cursor) (acc : List Char)
    (text : String) : (readAttributeBody quote fuel c acc).kind ≠ .word text := by
  fun_induction readAttributeBody quote fuel c acc with
  | case1 | case2 | case6 => exact TokenKind.noConfusion
  | case3 _ _ _ _ _ _ _ _ ih | case4 _ _ _ _ _ _ ih | case5 _ _ _ _ _ ih => exact ih
  | case7 _ _ _ _ _ _ _ _ _ ih => exact ih

/-- What is read inside a tag as a word holds no mark that joins such words. -/
theorem isTagWord_of_readTagLexeme {c : Cursor} {text : String}
    (h : (readTagLexeme c).kind = .word text) : isTagWord text = true := by
  unfold readTagLexeme at h
  split at h
  · cases h
  split at h
  · exact absurd h (kind_readAttributeBody _ _ _ _ _)
  split at h
  · cases h
    refine isTagWord_ofList fun x hx => ?_
    exact List.mem_takeWhile_imp (p := fun y => Text.isIdentifierPart y || y = '-') hx
  split at h
  · cases h
  · unfold readStray at h
    split at h <;> cases h

/-- Behind a token that is passed inside a tag. -/
theorem yields_discard_passInTag {s : ReadState} {Q : Unit → ReadState → Prop}
    (h : ∀ s', s'.InTag → Q () s') : Yields (discard passInTag) s Q := by
  rintro _ s' heq
  cases heq
  exact h _ fun text htext => isTagWord_of_readTagLexeme htext

/-- A word of a tag; behind it the state is inside the tag again. -/
theorem tagWord_yields {s : ReadState} (h : s.InTag) :
    Yields tagWord s fun x s' => isTagWord x.2 = true ∧ s'.InTag := by
  refine yields_bind.mpr (yields_peek.mpr ?_)
  split
  · next text heq =>
    refine yields_bind.mpr (yields_discard_passInTag fun s' h' => ?_)
    exact (yields_pure _).mpr ⟨h text heq, h'⟩
  · exact yields_fail

/-- **The words of the name of a tag** hold no marks: every one of them has been read inside the
tag. -/
theorem tagName_yields {s : ReadState} (h : s.InTag) :
    Yields tagName s fun tag _ => tag.isPlain = true := by
  refine yields_bind.mpr ((tagWord_yields h).mono ?_)
  rintro ⟨place, first⟩ s₁ ⟨hfirst, h₁⟩
  refine yields_bind.mpr (yields_at?.mpr (yields_ite (fun _ => ?_) fun _ => ?_))
  · refine yields_bind.mpr (yields_discard_passInTag fun s₂ h₂ => ?_)
    refine yields_bind.mpr ((tagWord_yields h₂).mono ?_)
    rintro ⟨place, second⟩ s₃ ⟨hsecond, -⟩
    have hdone : Gives (pure (.namespaced first second)) fun tag : TagName => tag.isPlain = true :=
      .pure (by simp [TagName.isPlain, hfirst, hsecond])
    exact Gives.step (fun _ => .when fun _ => hdone) s₃
  -- the chain of properties grows one name at a time and stays within the tag
  · refine yields_iterate (I := fun name s' => name.isPlain = true ∧ s'.InTag) ?_ ⟨hfirst, h₁⟩
    rintro name s₂ ⟨hname, h₂⟩
    refine yields_bind.mpr (yields_at?.mpr (yields_ite (fun _ => ?_) fun _ => ?_))
    · refine yields_bind.mpr (yields_discard_passInTag fun s₃ h₃ => ?_)
      refine yields_bind.mpr ((tagWord_yields h₃).mono ?_)
      rintro ⟨place, property⟩ s₄ ⟨hproperty, h₄⟩
      exact (yields_pure _).mpr ⟨by simp [TagName.isPlain, hname, hproperty], h₄⟩
    · exact (yields_pure _).mpr hname

section Rules

variable {g : Rules} (hg : (g ()).IsFormed)
include hg

theorem inBraces_formed (next : Cursor → Token) : (inBraces g next).Gives Plain :=
  .bind (.bracketed hg.expression) fun _ he => .step fun _ => .pure he

/-- The value of an attribute: a text, an expression in braces, or an element. -/
theorem tagAttributeValue_formed : (tagAttributeValue g).Gives WellFormed := by
  refine .step fun t => ?_
  split
  · exact .step fun _ => .pure (by simp)
  · exact .step fun _ => .bind (inBraces_formed hg _) fun e he => .pure (by simp [he])
  · exact hg.markup _
  · exact .fail

/-- What stands in a row of attributes. -/
theorem tagAttribute?_formed : (tagAttribute? g).Gives fun o =>
    ∀ a ∈ o, a.form.isAttribute = true ∧ ∀ n ∈ a.parts, n.WellFormed := by
  refine .step fun t => ?_
  split
  · refine .step fun _ => .step fun _ => .bind (.bracketed hg.assignment) fun e he => ?_
    exact .step fun _ => .pure (by simp [Form.isAttribute, he])
  · refine .step fun ⟨_, first⟩ => .step fun _ => ?_
    extract_lets rest
    -- with or without a name space the value is read by one rule
    have hrest : ∀ name, (rest name).Gives fun o =>
        ∀ a ∈ o, a.form.isAttribute = true ∧ ∀ n ∈ a.parts, n.WellFormed := by
      refine fun name => .step fun _ => ?_
      extract_lets done
      have hdone : ∀ value : Node, value.WellFormed → (done value).Gives fun o =>
          ∀ a ∈ o, a.form.isAttribute = true ∧ ∀ n ∈ a.parts, n.WellFormed :=
        fun value hvalue => .pure (by simp [Form.isAttribute, hvalue])
      refine .ite (.step fun _ => .bind (tagAttributeValue_formed hg) hdone) ?_
      exact .bind (.pure (by simp)) hdone
    exact .ite (.step fun _ => .step fun ⟨_, second⟩ => .step hrest) (.step hrest)
  · exact .pure (by simp)

theorem tagTypeArguments_formed : (tagTypeArguments g).Gives Plain := by
  refine .step fun _ => .step fun _ => .ite (.step fun _ => ?_) (.pure (by simp))
  exact .bind (typeArguments_formed hg) fun args hargs => .step fun _ => .pure hargs

/-- The children of an element, up to the closing tag. -/
theorem children_formed : (children g).Gives fun x => ∀ n ∈ x.1, n.WellFormed := by
  refine .iterate (fun acc => ∀ n ∈ acc, n.WellFormed) (fun n hn => nomatch hn) fun acc hacc => ?_
  refine .step fun t => ?_
  split
  · exact .step fun _ => .more (List.forall_mem_cons.mpr ⟨by simp, hacc⟩)
  · refine .step fun _ => .step fun _ => .ite (.step fun _ => .more ?_) (.step fun _ => .ite ?_ ?_)
    · exact List.forall_mem_cons.mpr ⟨by simp, hacc⟩
    · refine .bind (inBraces_formed hg _) fun e he => .more ?_
      exact List.forall_mem_cons.mpr ⟨by simp [he], hacc⟩
    · refine .bind (inBraces_formed hg _) fun e he => .more ?_
      exact List.forall_mem_cons.mpr ⟨by simp [he], hacc⟩
  · refine .ite (.step fun _ => .step fun _ => .step fun _ => ?_) ?_
    · exact .choose fun tag => .done (forall_mem_reverse hacc)
    · refine .bind (hg.markup _) fun n hn => ?_
      exact .more (List.forall_mem_cons.mpr ⟨hn, hacc⟩)
  · exact .fail

/-- An element behind its name. -/
theorem elementRest_formed (after : Cursor → Token) (place : Place) {tag : TagName}
    (htag : tag.isPlain = true) : Gives (do
      let types ← tagTypeArguments g
      let attributes ← iterate [] fun acc => do
        match ← tagAttribute? g with
        | some n => return .more (n :: acc)
        | none => return .done acc.reverse
      let opening : Node := ⟨.opening tag, place, [.list attributes, types]⟩
      if ← at? "/" then
        discard passInTag
        expectThen ">" after
        return ⟨.element, place, [opening, .list [], .absent]⟩
      expectThen ">" Cursor.childToken
      let (nodes, close) ← bracketed (children g)
      if close.tag ≠ some tag then fail
      expectThen ">" after
      return ⟨.element, place, [opening, .list nodes, .leaf (.closing tag) close.place]⟩)
      WellFormed := by
  refine .bind (tagTypeArguments_formed hg) fun types htypes => ?_
  refine .bind (P := fun attributes : List Node =>
    ∀ a ∈ attributes, a.form.isAttribute = true ∧ ∀ n ∈ a.parts, n.WellFormed) ?_ ?_
  · refine .iterate (fun acc => ∀ a ∈ acc, a.form.isAttribute = true ∧ ∀ n ∈ a.parts, n.WellFormed)
      (fun a ha => nomatch ha) fun acc hacc => ?_
    exact .bind (tagAttribute?_formed hg) fun
      | some a, ha => .more (List.forall_mem_cons.mpr ⟨ha a rfl, hacc⟩)
      | none, _ => .done (forall_mem_reverse hacc)
  intro attributes hattributes
  -- the two ends build the same node, with or without children
  have helement : ∀ children closing, (∀ n ∈ children, n.WellFormed) → closing.WellFormed →
      Node.WellFormed ⟨.element, place,
        [⟨.opening tag, place, [.list attributes, types]⟩, .list children, closing]⟩ :=
    fun children closing hchildren hclosing => .element htag (fun a ha => (hattributes a ha).1)
      (fun a ha => (hattributes a ha).2) hchildren htypes.wellFormed hclosing
  refine .step fun _ => .ite (.step fun _ => .step fun _ => .pure ?_) (.step fun _ => ?_)
  · exact helement [] _ (by simp) (by simp)
  refine .bind (.bracketed (children_formed hg)) fun ⟨nodes, close⟩ hnodes => ?_
  exact .when fun _ => .step fun _ => .pure (helement nodes _ hnodes (by simp))

/-- **An element or a fragment** is well-formed. Only this rule builds opening tags and
attributes. -/
theorem markupRule_formed (after : Cursor → Token) : (markupRule g after).Gives WellFormed := by
  refine .step fun place => .step fun _ => .whenNot fun _ => ?_
  intro s
  refine yields_bind.mpr (yields_discard_passInTag fun s₁ h₁ => yields_bind.mpr (yields_at?.mpr ?_))
  refine yields_ite (fun _ => ?_) fun _ => yields_bind.mpr ((tagName_yields h₁).mono ?_)
  · have hfragment : Gives (do
        discard (passWith Cursor.childToken)
        let (nodes, close) ← bracketed (children g)
        if close.tag.isSome then fail
        expectThen ">" after
        return ⟨.fragment, place, nodes⟩) WellFormed := by
      refine .step fun _ => .bind (.bracketed (children_formed hg)) fun ⟨nodes, close⟩ hnodes => ?_
      exact .when fun _ => .step fun _ => .pure (by simpa using hnodes)
    exact hfragment s₁
  · intro tag s₂ htag
    exact elementRest_formed hg after place htag s₂

end Rules

/-! ### The whole grammar -/

/-- **Whatever a grammar gives is well-formed.** The induction is on how deep rules may ask for one
another: each rule is known to be right if those that it asks for are. -/
theorem isFormed_grammar (depth : Nat) : (grammar depth).IsFormed := by
  induction depth with
  | zero =>
    -- No rule gives anything.
    exact ⟨.fail, .fail, fun _ _ _ => .fail, .fail, .fail, .fail, fun _ => .fail, .fail, .fail,
      .fail, fun _ => .fail⟩
  | succ depth ih =>
    let rules : Rules := fun _ => grammar depth
    have hrules : (rules ()).IsFormed := ih
    exact ⟨expressionRule_formed hrules, assignmentRule_formed hrules,
      fun _ floor hfirst => operatorsRule_formed hrules hfirst floor, unaryRule_formed hrules,
      accessRule_formed hrules, constructionRule_formed hrules, statementRule_formed hrules,
      moduleItemRule_formed hrules, patternRule_formed hrules, typeRule_formed hrules,
      markupRule_formed hrules⟩

/-- The items of a module, as they are read one after another. -/
theorem moduleItems_formed {g : Rules} (hg : (g ()).IsFormed) :
    (moduleItems g).Gives fun m => ∀ n ∈ m, n.WellFormed := by
  refine .iterate (fun acc => ∀ n ∈ acc, n.WellFormed) (fun n hn => nomatch hn) fun acc hacc => ?_
  refine .step fun _ => .ite (.done (forall_mem_reverse hacc)) (.step fun _ => .ite ?_ ?_)
  · exact .done (forall_mem_reverse hacc)
  · exact .bind hg.moduleItem fun n hn => .more (List.forall_mem_cons.mpr ⟨hn.wellFormed, hacc⟩)

section Modules

variable {dialect : Dialect} {chars : List Char} {m : Module} {faults : List Fault}
  (h : Module.read? dialect chars = some (m, faults))
include h

/-- **The items of a module that has been read are well-formed.** -/
theorem Module.wellFormed_of_read? : ∀ n ∈ m, n.WellFormed := by
  dsimp only [Module.read?] at h
  split at h
  · next items s heq =>
    cases h
    exact moduleItems_formed (isFormed_grammar _) _ _ _ heq
  · cases h

/-- **A module that has been read has all markup in its place.** -/
theorem Module.wellMarked_of_read? : m.WellMarked :=
  fun n hn => (Module.wellFormed_of_read? h n hn).wellMarked

end Modules

end JsxWidgets.Syntax
