import JsxWidgets.Proofs.Lowering.Rewriting

/-!
# What the lowering looks through

Some constructs hold others and show nothing of their own, so that a widget does not tell whether
they are there. Each of them is a step of rewriting (`Rewrites`), and what a step does not change in
its place is not changed at any depth.

* A fragment is nothing but its children, and an element that shows text only is nothing but its
  children where it stands inside another text and has no attributes. `Flattens` puts the children
  in their place (`lower_flattens`). The step changes how many children there are, so what has to be
  the same of children is their widgets and their texts taken together, and not one by one.
* Parentheses around an expression in braces make no difference, with one exception: a number among
  the children is shown as it is written, with the parentheses around it. All other readers of an
  expression look through the parentheses first. `Parenthesizes` puts parentheses where they do not
  show; everywhere else they do (`lower_parenthesizes`).
-/

namespace JsxWidgets

open Syntax Expression

/-! ### Fragments and texts inside texts -/

/-- **Children in the place of what holds them.** -/
inductive Flattens (overrides : Overrides) : Region → List Node → List Node → Prop
  /-- A fragment gives way to its children. -/
  | fragment (inText : Bool) (p : Place) (ns : List Node) :
    Flattens overrides (.children inText) [⟨.fragment, p, ns⟩] ns
  /-- Inside a text, so does an element that shows text only and has no attributes. -/
  | merged {n : Node} {el : Element} : n.element? = some el → el.attributes = [] →
    isTextLike overrides el.tag.text = true →
    Flattens overrides (.children true) [n] el.children

section Steps

variable (overrides : Overrides)

theorem fragment_flat (inText : Bool) (p : Place) (ns : List Node) :
    SameChildren overrides inText [⟨.fragment, p, ns⟩] ns := by
  cases inText with
  | false =>
    change lowerNodes overrides [_] = lowerNodes overrides ns
    rw [lowerNodes_singleton, lowerNode]
  | true =>
    intro target
    rw [collectTexts_singleton, collectText]

/-- Without attributes nothing is added to what the children give. -/
theorem merged_flat {n : Node} {el : Element} (hn : n.element? = some el)
    (hattributes : el.attributes = []) (htext : isTextLike overrides el.tag.text = true) :
    SameChildren overrides true [n] el.children := by
  intro target
  rw [collectTexts_singleton, collectText_element overrides target hn, if_pos htext, hattributes,
    lowerNestedAttributes, pure_bind]
  exact bind_pure _

end Steps

theorem Flattens.sameIn {overrides : Overrides} {r : Region} {ns ns' : List Node}
    (h : Flattens overrides r ns ns') : r.Same overrides ns ns' := by
  cases h with
  | fragment inText p => exact fragment_flat overrides inText p ns'
  | merged hn hattributes htext => exact merged_flat overrides hn hattributes htext

/-- **Fragments are transparent**, at any depth of an element and among several roots, and so are
elements without attributes that are merged into a text. -/
theorem lower_flattens (b : Builder) :
    (∀ n n', Rewrites b.overrides (Flattens b.overrides) (.markup false) [n] [n'] →
      b.lower n = b.lower n') ∧
    ∀ p p' ns ns', Rewrites b.overrides (Flattens b.overrides) (.children false) ns ns' →
      b.lower ⟨.fragment, p, ns⟩ = b.lower ⟨.fragment, p', ns'⟩ := by
  have hstep : ∀ r ns ns', Flattens b.overrides r ns ns' → r.Same b.overrides ns ns' :=
    fun _ _ _ => Flattens.sameIn
  refine ⟨fun n n' h => h.lower_eq b hstep, fun p p' ns ns' h => ?_⟩
  -- Several roots are lowered as a fragment around them.
  exact (Rewrites.fragment p p' h).lower_eq b hstep

/-- A fragment in a section goes, and then the bold text in the paragraph that it held. -/
theorem lower_flattens_section :
    Rewrites [] (Flattens []) (.markup false)
        [.ofElement ⟨.simple "section", [], [⟨.fragment, 0, [
          .ofElement ⟨.simple "p", [], [.ofElement ⟨.simple "b", [], [.leaf (.text "Hi") 0]⟩]⟩,
          .ofElement ⟨.simple "hr", [], []⟩]⟩]⟩]
        [.ofElement ⟨.simple "section", [], [.ofElement ⟨.simple "p", [], [.leaf (.text "Hi") 0]⟩,
          .ofElement ⟨.simple "hr", [], []⟩]⟩] ∧
      Builder.lower {} (.ofElement ⟨.simple "section", [], [⟨.fragment, 0, [
          .ofElement ⟨.simple "p", [], [.ofElement ⟨.simple "b", [], [.leaf (.text "Hi") 0]⟩]⟩,
          .ofElement ⟨.simple "hr", [], []⟩]⟩]⟩) =
        Builder.lower {} (.ofElement ⟨.simple "section", [], [
          .ofElement ⟨.simple "p", [], [.leaf (.text "Hi") 0]⟩,
          .ofElement ⟨.simple "hr", [], []⟩]⟩) := by
  have hbold : Flattens [] (.children true)
      [.ofElement ⟨.simple "b", [], [.leaf (.text "Hi") 0]⟩] [.leaf (.text "Hi") 0] := by
    have hel := Node.element?_ofElement ⟨.simple "b", [], [.leaf (.text "Hi") 0]⟩
    exact .merged hel rfl (by decide)
  have hparagraph : Rewrites [] (Flattens []) (.children false)
      [.ofElement ⟨.simple "p", [], [.ofElement ⟨.simple "b", [], [.leaf (.text "Hi") 0]⟩]⟩]
      [.ofElement ⟨.simple "p", [], [.leaf (.text "Hi") 0]⟩] :=
    .child (.element rfl rfl rfl (.same _ _) (.here hbold))
  have hsection : Rewrites [] (Flattens []) (.markup false)
      [.ofElement ⟨.simple "section", [], [⟨.fragment, 0, [
        .ofElement ⟨.simple "p", [], [.ofElement ⟨.simple "b", [], [.leaf (.text "Hi") 0]⟩]⟩,
        .ofElement ⟨.simple "hr", [], []⟩]⟩]⟩]
      [.ofElement ⟨.simple "section", [], [.ofElement ⟨.simple "p", [], [.leaf (.text "Hi") 0]⟩,
        .ofElement ⟨.simple "hr", [], []⟩]⟩] :=
    .element rfl rfl rfl (.same _ _)
      (.trans (.here (.fragment _ _ _)) (.append hparagraph (.same _ [_])))
  exact ⟨hsection, (lower_flattens {}).1 _ _ hsection⟩

/-! ### Parentheses -/

/-- **Whether parentheses around an expression show**: it is a number, and the summary has room for
one more pair of them. -/
def ShowsParentheses (e : Node) : Prop :=
  (∃ v, e.unwrap.form = .number v) ∧ summary ⟨.paren, 0, [e]⟩ ≠ summary e

/-- **Parentheses that do not show** around an expression in braces. -/
inductive Parenthesizes : Region → List Node → List Node → Prop
  /-- Among children. -/
  | child {e : Node} (inText : Bool) (p p' q : Place) : e.form ≠ .absent → ¬ ShowsParentheses e →
    Parenthesizes (.children inText) [⟨.container, p, [e]⟩] [⟨.container, p', [⟨.paren, q, [e]⟩]⟩]
  /-- As the value of an attribute, where no parentheses ever show. -/
  | value {e : Node} (name : AttributeName) (p p' q q' r : Place) : e.form ≠ .absent →
    Parenthesizes .attributes [⟨.attr name, p, [⟨.container, q, [e]⟩]⟩]
      [⟨.attr name, p', [⟨.container, q', [⟨.paren, r, [e]⟩]⟩]⟩]

/-! ### Where parentheses do not show -/

section Steps

variable {overrides : Overrides} {e : Node} (p p' q q' r : Place)

theorem unwrap_paren (e : Node) : Node.unwrap ⟨.paren, r, [e]⟩ = e.unwrap := rfl

/-- A number is the only text that shows parentheses. -/
theorem plainText?_paren_iff (e : Node) :
    plainText? ⟨.paren, r, [e]⟩ = plainText? e ↔ ¬ ShowsParentheses e := by
  have hplace : summary ⟨.paren, r, [e]⟩ = summary ⟨.paren, 0, [e]⟩ := rfl
  rw [plainText?, plainText?, unwrap_paren, ShowsParentheses, hplace]
  cases hform : e.unwrap.form
  case number v => simp
  all_goals simp

/-- What reads an expression as text looks through parentheses, but for a number. -/
theorem expressionText_paren (h : ¬ ShowsParentheses e) :
    expressionText ⟨.paren, r, [e]⟩ = expressionText e := by
  rw [expressionText, expressionText, (plainText?_paren_iff r e).mpr h, unwrap_paren, path?]

theorem child_parenthesized (inText : Bool) (he : e.form ≠ .absent) (h : ¬ ShowsParentheses e) :
    SameChildren overrides inText [⟨.container, p, [e]⟩]
      [⟨.container, p', [⟨.paren, q, [e]⟩]⟩] := by
  have hparen : (Node.mk .paren q [e]).form ≠ .absent := nofun
  cases inText with
  | false =>
    change lowerNodes overrides [_] = lowerNodes overrides [_]
    rw [lowerNodes_singleton, lowerNodes_singleton, lowerNode_container, lowerNode_container,
      if_neg he, if_neg hparen, (plainText?_paren_iff q e).mpr h,
      lowerNode_inner (n := ⟨.paren, q, [e]⟩) rfl]
  | true =>
    intro target
    rw [collectTexts_singleton, collectTexts_singleton, collectText_container,
      collectText_container, if_neg he, if_neg hparen, expressionText_paren q h]

theorem value_parenthesized (name : AttributeName) (he : e.form ≠ .absent) :
    SameAttributes overrides [⟨.attr name, p, [⟨.container, q, [e]⟩]⟩]
      [⟨.attr name, p', [⟨.container, q', [⟨.paren, r, [e]⟩]⟩]⟩] := by
  have hparen : (Node.mk .paren r [e]).form ≠ .absent := nofun
  have hvalue : GivenValue.ofAttribute ⟨.attr name, p', [⟨.container, q', [⟨.paren, r, [e]⟩]⟩]⟩ =
      .ofAttribute ⟨.attr name, p, [⟨.container, q, [e]⟩]⟩ := by
    rw [ofAttribute_braces, ofAttribute_braces, if_neg he, if_neg hparen, GivenValue.ofExpr,
      GivenValue.ofExpr, unwrap_paren]
  refine attribute_same rfl rfl ?_
  rw [hvalue]
  refine .named name.text (.refl _) fun n n' hn hn' => ?_
  rw [hn] at hn'
  cases hn'
  rfl

end Steps

theorem Parenthesizes.sameIn {overrides : Overrides} {r : Region} {ns ns' : List Node}
    (h : Parenthesizes r ns ns') : r.Same overrides ns ns' := by
  cases h with
  | child inText p p' q he hshows => exact child_parenthesized p p' q inText he hshows
  | value name p p' q q' r he => exact value_parenthesized p p' q q' r name he

/-! ### Where they do -/

section Shown

variable {overrides : Overrides} {e : Node} (p q r : Place)

theorem paren_form_ne (e : Node) : (Node.mk .paren r [e]).form ≠ .absent := nofun

theorem ShowsParentheses.form_ne (h : ShowsParentheses e) : e.form ≠ .absent := by
  obtain ⟨⟨v, hv⟩, -⟩ := h
  rintro he
  obtain ⟨form, place, parts⟩ := e
  obtain rfl : form = .absent := he
  cases hv

theorem ofText_injective {s t : String} (h : Widget.ofText s = .ofText t) : s = t := by
  cases h
  rfl

theorem positionalText_injective {s t : String}
    (h : some (Property.positional (.text s)) = some (.positional (.text t))) : s = t := by
  cases h
  rfl

/-- Both texts of a number that shows parentheses. -/
theorem plainText?_of_shows (h : ShowsParentheses e) :
    plainText? ⟨.paren, r, [e]⟩ = some (summary ⟨.paren, 0, [e]⟩) ∧
      plainText? e = some (summary e) := by
  obtain ⟨⟨v, hv⟩, -⟩ := h
  rw [plainText?, plainText?, unwrap_paren, hv]
  exact ⟨rfl, rfl⟩

/-- What stands in parentheses is not blank. -/
theorem isAllBlank_paren (e : Node) : Text.isAllBlank (summary ⟨.paren, 0, [e]⟩) = false := by
  change Text.isAllBlank ("(" ++ summaryWithin 6 e ++ ")") = false
  rw [Text.isAllBlank, String.toList_append, String.toList_append, List.all_append,
    List.all_append]
  rfl

/-- The only widget of a fragment with one expression in braces, if it is a number. -/
theorem lower_fragment_number (b : Builder) {s : String} (he : e.form ≠ .absent)
    (hs : plainText? e = some s) :
    (b.lower ⟨.fragment, p, [⟨.container, q, [e]⟩]⟩).1 =
      if Text.isAllBlank s then .empty else .ofText s := by
  rw [Builder.lower_fst, lowerMarkup, lowerNode, lowerNodes_singleton, lowerNode_container,
    if_neg he, hs]
  dsimp only
  split <;> rfl

theorem lower_fragment_shows (b : Builder) (h : ShowsParentheses e) :
    b.lower ⟨.fragment, p, [⟨.container, q, [⟨.paren, r, [e]⟩]⟩]⟩ ≠
      b.lower ⟨.fragment, p, [⟨.container, q, [e]⟩]⟩ := by
  obtain ⟨hparen, hplain⟩ := plainText?_of_shows r h
  intro heq
  have hwidget := congrArg Prod.fst heq
  rw [lower_fragment_number p q b (paren_form_ne r e) hparen,
    lower_fragment_number p q b h.form_ne hplain, isAllBlank_paren,
    if_neg Bool.false_ne_true] at hwidget
  -- The text in parentheses is shown, and the other one is not, or it is another one.
  split at hwidget
  · exact List.cons_ne_nil _ _ (congrArg Widget.properties hwidget)
  · exact h.2 (ofText_injective hwidget)

/-- The text that an element shows if all that it holds is a number in braces. -/
theorem lower_text_number (b : Builder) {s : String} {tag : TagName}
    (htext : isTextLike b.overrides tag.text = true) (he : e.form ≠ .absent)
    (hnumber : ∃ v, e.unwrap.form = .number v) (hs : plainText? e = some s) :
    (b.lower (.ofElement ⟨tag, [], [⟨.container, q, [e]⟩]⟩)).1.properties.head? =
      some (.positional (.text s)) := by
  -- the number is printed by its source, wrapped or not, and that is a fixed piece
  have hcontent (target : String) : (collectTexts b.overrides target
      [⟨.container, q, [e]⟩]).value.pieces = [.fixed s] := by
    obtain ⟨v, hv⟩ := hnumber
    rw [collectTexts_singleton, collectText_container, if_neg he, expressionText, hs]
    dsimp only
    rw [hv]
    rfl
  cases hrow : b.overrides.rowOf? tag with
  | none =>
    rw [isTextLike_of_component hrow] at htext
    cases htext
  | some found =>
    rw [isTextLike_of_row hrow] at htext
    rw [Builder.lower_fst, lowerMarkup, lowerNode_element (Node.element?_ofElement _),
      lowerElement_of_row hrow, Noted.value_map, Noted.value_map, Noted.value_bind, siblings,
      lowerKnown_value_text _ _ found htext, textWidget, Widget.properties, List.head?_cons,
      hcontent]
    rfl

theorem lower_text_shows (b : Builder) {tag : TagName}
    (htext : isTextLike b.overrides tag.text = true) (h : ShowsParentheses e) :
    b.lower (.ofElement ⟨tag, [], [⟨.container, q, [⟨.paren, r, [e]⟩]⟩]⟩) ≠
      b.lower (.ofElement ⟨tag, [], [⟨.container, q, [e]⟩]⟩) := by
  obtain ⟨hparen, hplain⟩ := plainText?_of_shows r h
  intro heq
  have hfirst := congrArg (·.1.properties.head?) heq
  rw [lower_text_number q b htext (paren_form_ne r e) h.1 hparen,
    lower_text_number q b htext h.form_ne h.1 hplain] at hfirst
  exact h.2 (positionalText_injective hfirst)

end Shown

/-- **Redundant parentheses** change nothing at any depth where they do not show. Where they do, a
fragment and a text that hold nothing else become other widgets. -/
theorem lower_parenthesizes (b : Builder) :
    (∀ n n', Rewrites b.overrides Parenthesizes (.markup false) [n] [n'] →
      b.lower n = b.lower n') ∧
    (∀ p q r e, e.form ≠ .absent →
      (b.lower ⟨.fragment, p, [⟨.container, q, [⟨.paren, r, [e]⟩]⟩]⟩ =
        b.lower ⟨.fragment, p, [⟨.container, q, [e]⟩]⟩ ↔ ¬ ShowsParentheses e)) ∧
    ∀ tag q r e, isTextLike b.overrides tag.text = true → e.form ≠ .absent →
      (b.lower (.ofElement ⟨tag, [], [⟨.container, q, [⟨.paren, r, [e]⟩]⟩]⟩) =
        b.lower (.ofElement ⟨tag, [], [⟨.container, q, [e]⟩]⟩) ↔ ¬ ShowsParentheses e) := by
  have hlaw {n n' : Node} (h : Rewrites b.overrides Parenthesizes (.markup false) [n] [n']) :
      b.lower n = b.lower n' := h.lower_eq b fun _ _ _ => Parenthesizes.sameIn
  refine ⟨fun n n' => hlaw, fun p q r e he => ?_, fun tag q r e htext he => ?_⟩
  -- the parentheses that show are those around a number; all the others are rewritten away
  · refine ⟨fun heq hshows => lower_fragment_shows p q r b hshows heq, fun hshows => ?_⟩
    exact (hlaw (.fragment p p (.here (.child false q q r he hshows)))).symm
  · refine ⟨fun heq hshows => lower_text_shows q r b htext hshows heq, fun hshows => ?_⟩
    have hel := Node.element?_ofElement ⟨tag, [], [⟨.container, q, [e]⟩]⟩
    have hel' := Node.element?_ofElement ⟨tag, [], [⟨.container, q, [⟨.paren, r, [e]⟩]⟩]⟩
    exact (hlaw (.element hel hel' rfl (.same _ _) (.here (.child _ q q r he hshows)))).symm

/-- A name in parentheses is shown as the name. -/
theorem lower_parenthesizes_name :
    Builder.lower {} (.ofElement ⟨.simple "p", [],
        [⟨.container, 0, [⟨.paren, 0, [.leaf (.name "price") 0]⟩]⟩]⟩) =
      Builder.lower {} (.ofElement ⟨.simple "p", [],
        [⟨.container, 0, [.leaf (.name "price") 0]⟩]⟩) := by
  have hlaw := (lower_parenthesizes {}).2.2 (.simple "p") 0 0 (.leaf (.name "price") 0)
  refine (hlaw (by decide) nofun).mpr ?_
  rintro ⟨⟨v, hv⟩, -⟩
  cases hv

/-- A paragraph that shows the parentheses around a number. -/
theorem lower_parenthesized_number :
    Builder.lower {} (.ofElement ⟨.simple "p", [],
        [⟨.container, 0, [⟨.paren, 0, [.leaf (.number (.ofNat 5)) 0]⟩]⟩]⟩) ≠
      Builder.lower {} (.ofElement ⟨.simple "p", [],
        [⟨.container, 0, [.leaf (.number (.ofNat 5)) 0]⟩]⟩) :=
  lower_text_shows 0 0 {} (by decide) ⟨⟨_, rfl⟩, by decide⟩

end JsxWidgets
