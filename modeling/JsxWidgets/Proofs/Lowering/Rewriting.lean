import JsxWidgets.Proofs.Lowering.Values

/-!
# Rewriting markup

Two pieces of markup that differ in several places become the same widget if each place is read
alike. `Rewrites` says what a place is: `step` relates what may stand there, and the other
constructors go down to it, through elements, fragments, braces, the values of attributes and the
parts of expressions. What has to be the same about a place depends on its region (`Region.Same`):
of children it is their widgets or, inside a text, what they give to the text; of attributes what
they add, wherever they stand; of expressions their outlines and their widgets.

`Rewrites.sameIn` is the law: a step that is the same in its region is the same in all of them. Its
cases are the constructors, and each has a lemma of its own.
-/

namespace JsxWidgets

open Syntax Expression

/-! ### Regions -/

/-- An element or a fragment. -/
def Syntax.Node.IsMarkup (n : Node) : Prop := n.form = .element ∨ n.form = .fragment

/-- **What several nodes in a row are to the lowering.** -/
inductive Region where
  /-- Children, of an element that shows text only or of another one. -/
  | children (inText : Bool)
  /-- Attributes. -/
  | attributes
  /-- Elements and fragments among children, or where only markup can stand. -/
  | markup (inText : Bool)
  /-- Expressions, and the parts that they are made of. -/
  | expressions

/-- **Rewriting at any depth.** Steps in any number of places inside lead from the first nodes to
the second ones. -/
inductive Rewrites (overrides : Overrides) (step : Region → List Node → List Node → Prop) :
    Region → List Node → List Node → Prop
  /-- A step. -/
  | here {r : Region} {ns ns' : List Node} : step r ns ns' → Rewrites overrides step r ns ns'
  /-- No step. -/
  | same (r : Region) (ns : List Node) : Rewrites overrides step r ns ns
  /-- One after the other. -/
  | trans {r : Region} {ns ms ks : List Node} : Rewrites overrides step r ns ms →
    Rewrites overrides step r ms ks → Rewrites overrides step r ns ks
  /-- Side by side. -/
  | append {r : Region} {ns ns' ms ms' : List Node} : Rewrites overrides step r ns ns' →
    Rewrites overrides step r ms ms' → Rewrites overrides step r (ns ++ ms) (ns' ++ ms')
  /-- In the attributes and in the children of an element. -/
  | element {inText : Bool} {n n' : Node} {el el' : Element} : n.element? = some el →
    n'.element? = some el' → el.tag = el'.tag →
    Rewrites overrides step .attributes el.attributes el'.attributes →
    Rewrites overrides step (.children (isTextLike overrides el.tag.text)) el.children
      el'.children →
    Rewrites overrides step (.markup inText) [n] [n']
  /-- In a fragment. -/
  | fragment {inText : Bool} {ns ns' : List Node} (p p' : Place) :
    Rewrites overrides step (.children inText) ns ns' →
    Rewrites overrides step (.markup inText) [⟨.fragment, p, ns⟩] [⟨.fragment, p', ns'⟩]
  /-- In markup among children. -/
  | child {inText : Bool} {ns ns' : List Node} : Rewrites overrides step (.markup inText) ns ns' →
    Rewrites overrides step (.children inText) ns ns'
  /-- In an expression among children. -/
  | braces {e e' : Node} (inText : Bool) (p p' : Place) :
    Rewrites overrides step .expressions [e] [e'] →
    Rewrites overrides step (.children inText) [⟨.container, p, [e]⟩] [⟨.container, p', [e']⟩]
  /-- In a spread among children. -/
  | spreadChild {e e' : Node} (inText : Bool) (p p' : Place) :
    Rewrites overrides step .expressions [e] [e'] →
    Rewrites overrides step (.children inText) [⟨.spreadChild, p, [e]⟩] [⟨.spreadChild, p', [e']⟩]
  /-- In an expression that an attribute is given. -/
  | value {e e' : Node} (name : AttributeName) (p p' q q' : Place) :
    Rewrites overrides step .expressions [e] [e'] →
    Rewrites overrides step .attributes [⟨.attr name, p, [⟨.container, q, [e]⟩]⟩]
      [⟨.attr name, p', [⟨.container, q', [e']⟩]⟩]
  /-- In markup that an attribute is given without braces. -/
  | markupValue {n n' : Node} (name : AttributeName) (p p' : Place) : n.IsMarkup → n'.IsMarkup →
    Rewrites overrides step (.markup false) [n] [n'] →
    Rewrites overrides step .attributes [⟨.attr name, p, [n]⟩] [⟨.attr name, p', [n']⟩]
  /-- In a spread among attributes. -/
  | spread {e e' : Node} (p p' : Place) : Rewrites overrides step .expressions [e] [e'] →
    Rewrites overrides step .attributes [⟨.spread, p, [e]⟩] [⟨.spread, p', [e']⟩]
  /-- In markup that is an expression. -/
  | markup {n n' : Node} (p p' : Place) : Rewrites overrides step (.markup false) [n] [n'] →
    Rewrites overrides step .expressions [⟨.markup, p, [n]⟩] [⟨.markup, p', [n']⟩]
  /-- In the parts of an expression. -/
  | part {form : Form} {ns ns' : List Node} (p p' : Place) : form ≠ .element → form ≠ .markup →
    Rewrites overrides step .expressions ns ns' →
    Rewrites overrides step .expressions [⟨form, p, ns⟩] [⟨form, p', ns'⟩]

/-! ### What has to be the same -/

/-- What an expression shows of markup. -/
def Syntax.Node.face (n : Node) : Node := Node.outline ⟨.markup, 0, [n]⟩

/-- The same children. -/
def SameChildren (overrides : Overrides) : Bool → List Node → List Node → Prop
  | false, ns, ns' => lowerNodes overrides ns = lowerNodes overrides ns'
  | true, ns, ns' =>
    ∀ target, collectTexts overrides target ns = collectTexts overrides target ns'

/-- The same attributes: they add the same to an element with a row, to a component, and to a text
that their element is merged into. -/
structure SameAttributes (overrides : Overrides) (attrs attrs' : List Node) : Prop where
  /-- On an element with a row, behind any other attributes. -/
  known : ∀ row tag target before,
    lowerAttributes row tag target attrs before = lowerAttributes row tag target attrs' before
  /-- On a component. -/
  component : ∀ target, lowerComponentAttributes overrides target attrs =
    lowerComponentAttributes overrides target attrs'
  /-- On an element inside a text. -/
  nested : ∀ tag target,
    lowerNestedAttributes tag target attrs = lowerNestedAttributes tag target attrs'

/-- **What is the same in a region.** -/
def Region.Same (overrides : Overrides) : Region → List Node → List Node → Prop
  | .children inText, ns, ns' => SameChildren overrides inText ns ns'
  | .attributes, ns, ns' => SameAttributes overrides ns ns'
  | .markup inText, ns, ns' =>
    ns.map Node.face = ns'.map Node.face ∧ SameChildren overrides inText ns ns'
  | .expressions, ns, ns' =>
    ns.map Node.outline = ns'.map Node.outline ∧
      ns.map (lowerNode overrides) = ns'.map (lowerNode overrides)

/-! ### Side by side -/

/-- What is put together step by step is put together side by side. -/
theorem Noted.append_of_cons {α β : Type} [Append α] {all : List β → Noted α} {one : β → Noted α}
    {empty : α} (hnil : all [] = pure empty)
    (hcons : ∀ b bs, all (b :: bs) = do
      let first ← one b
      let rest ← all bs
      return first ++ rest)
    (hempty : ∀ a : α, empty ++ a = a) (hassoc : ∀ a b c : α, a ++ b ++ c = a ++ (b ++ c))
    (bs cs : List β) :
    all (bs ++ cs) = do
      let first ← all bs
      let rest ← all cs
      return first ++ rest := by
  induction bs with
  | nil => simp only [List.nil_append, hnil, pure_bind, hempty, bind_pure]
  | cons b bs ih => simp only [List.cons_append, hcons, ih, bind_assoc, pure_bind, hassoc]

namespace Additions

/-- No additions in front change nothing. -/
theorem empty_append (a : Additions) : {} ++ a = a := rfl

/-- No additions behind change nothing. -/
theorem append_empty (a : Additions) : a ++ {} = a :=
  congrArg₂ Additions.mk (List.append_nil _) (List.append_nil _)

/-- Additions one behind the other may be grouped in either way. -/
theorem append_assoc (a b c : Additions) : a ++ b ++ c = a ++ (b ++ c) := by
  show Additions.mk _ _ = Additions.mk _ _
  exact congrArg₂ Additions.mk (List.append_assoc ..) (List.append_assoc ..)

end Additions

namespace TextContent

/-- No text in front changes nothing. -/
theorem empty_append (a : TextContent) : {} ++ a = a := rfl

/-- No text behind changes nothing. -/
theorem append_empty (a : TextContent) : a ++ {} = a :=
  congrArg₂ TextContent.mk (List.append_nil _) (Additions.append_empty _)

/-- Texts one behind the other may be grouped in either way. -/
theorem append_assoc (a b c : TextContent) : a ++ b ++ c = a ++ (b ++ c) := by
  show TextContent.mk _ _ = TextContent.mk _ _
  exact congrArg₂ TextContent.mk (List.append_assoc ..) (Additions.append_assoc ..)

end TextContent

section Append

variable (overrides : Overrides)

/-- **Children are lowered one behind the other**, so those of two lists are those of each. -/
theorem lowerNodes_append (ns ms : List Node) :
    lowerNodes overrides (ns ++ ms) = do
      let first ← lowerNodes overrides ns
      let rest ← lowerNodes overrides ms
      return first ++ rest :=
  Noted.append_of_cons (by rw [lowerNodes]) (fun n ns => by rw [lowerNodes]) List.nil_append
    List.append_assoc ns ms

/-- Their texts are collected one behind the other. -/
theorem collectTexts_append (target : String) (ns ms : List Node) :
    collectTexts overrides target (ns ++ ms) = do
      let first ← collectTexts overrides target ns
      let rest ← collectTexts overrides target ms
      return first ++ rest :=
  Noted.append_of_cons (by rw [collectTexts]) (fun n ns => by rw [collectTexts])
    TextContent.empty_append TextContent.append_assoc ns ms

/-- So are the attributes of a component. -/
theorem lowerComponentAttributes_append (target : String) (attrs more : List Node) :
    lowerComponentAttributes overrides target (attrs ++ more) = do
      let first ← lowerComponentAttributes overrides target attrs
      let rest ← lowerComponentAttributes overrides target more
      return first ++ rest :=
  Noted.append_of_cons (by rw [lowerComponentAttributes])
    (fun attr attrs => by rw [lowerComponentAttributes]) Additions.empty_append
    Additions.append_assoc attrs more

/-- So are those of an element inside a text. -/
theorem lowerNestedAttributes_append (tag target : String) (attrs more : List Node) :
    lowerNestedAttributes tag target (attrs ++ more) = do
      let first ← lowerNestedAttributes tag target attrs
      let rest ← lowerNestedAttributes tag target more
      return first ++ rest :=
  Noted.append_of_cons (by rw [lowerNestedAttributes])
    (fun attr attrs => by rw [lowerNestedAttributes]) Additions.empty_append
    Additions.append_assoc attrs more

/-- Those of an element with a row see what those in front have added. -/
theorem lowerAttributes_append (row : ElementRow) (tag target : String) (attrs more : List Node)
    (before : Additions) :
    lowerAttributes row tag target (attrs ++ more) before = (do
      let added ← lowerAttributes row tag target attrs before
      lowerAttributes row tag target more added) := by
  induction attrs generalizing before with
  | nil => simp only [List.nil_append, lowerAttributes, pure_bind]
  | cons attr attrs ih => simp only [List.cons_append, lowerAttributes, ih, bind_assoc]

/-- A single child is lowered as such. -/
theorem lowerNodes_singleton (n : Node) : lowerNodes overrides [n] = lowerNode overrides n := by
  simp only [lowerNodes, pure_bind, List.append_nil, bind_pure]

/-- Its text is collected as such. -/
theorem collectTexts_singleton (target : String) (n : Node) :
    collectTexts overrides target [n] = collectText overrides target n := by
  simp only [collectTexts, pure_bind, TextContent.append_empty, bind_pure]

end Append

/-- Nodes with the same widgets one by one have the same widgets. -/
theorem lowerNodes_of_map {overrides : Overrides} {ns ns' : List Node}
    (h : ns.map (lowerNode overrides) = ns'.map (lowerNode overrides)) :
    lowerNodes overrides ns = lowerNodes overrides ns' := by
  induction ns generalizing ns' with
  | nil => rw [List.map_eq_nil_iff.mp h.symm]
  | cons n ns ih =>
    match ns', h with
    | n' :: ns', h =>
      obtain ⟨hn, hns⟩ := List.cons_eq_cons.mp h
      rw [lowerNodes, lowerNodes, hn, ih hns]

section SideBySide

variable {overrides : Overrides} {ns ns' ms ms' : List Node}

/-- Lists that are lowered alike may be appended. -/
theorem SameChildren.append {inText : Bool} (h : SameChildren overrides inText ns ns')
    (h' : SameChildren overrides inText ms ms') :
    SameChildren overrides inText (ns ++ ms) (ns' ++ ms') := by
  cases inText with
  | false =>
    change lowerNodes overrides (ns ++ ms) = lowerNodes overrides (ns' ++ ms')
    rw [lowerNodes_append, lowerNodes_append, show lowerNodes overrides ns = _ from h,
      show lowerNodes overrides ms = _ from h']
  | true =>
    intro target
    rw [collectTexts_append, collectTexts_append, h target, h' target]

/-- So may attributes that are lowered alike, whatever has been added in front. -/
theorem SameAttributes.append (h : SameAttributes overrides ns ns')
    (h' : SameAttributes overrides ms ms') : SameAttributes overrides (ns ++ ms) (ns' ++ ms') where
  known row tag target before := by
    simp only [lowerAttributes_append, h.known, h'.known]
  component target := by
    simp only [lowerComponentAttributes_append, h.component, h'.component]
  nested tag target := by
    simp only [lowerNestedAttributes_append, h.nested, h'.nested]

/-- **In every region, lists that are lowered alike may be appended.** -/
theorem Region.Same.append {r : Region} (h : r.Same overrides ns ns')
    (h' : r.Same overrides ms ms') : r.Same overrides (ns ++ ms) (ns' ++ ms') := by
  cases r with
  | children inText => exact SameChildren.append h h'
  | attributes => exact SameAttributes.append h h'
  | markup inText =>
    refine ⟨?_, SameChildren.append h.2 h'.2⟩
    rw [List.map_append, List.map_append, h.1, h'.1]
  | expressions =>
    refine ⟨?_, ?_⟩
    · rw [List.map_append, List.map_append, h.1, h'.1]
    · rw [List.map_append, List.map_append, h.2, h'.2]

/-- Being lowered alike passes on. -/
theorem SameChildren.trans {inText : Bool} {ks : List Node}
    (h : SameChildren overrides inText ns ms) (h' : SameChildren overrides inText ms ks) :
    SameChildren overrides inText ns ks := by
  cases inText with
  | false => exact Eq.trans h h'
  | true => exact fun target => (h target).trans (h' target)

/-- It does so in every region. -/
theorem Region.Same.trans {r : Region} {ks : List Node} (h : r.Same overrides ns ms)
    (h' : r.Same overrides ms ks) : r.Same overrides ns ks := by
  cases r with
  | children inText => exact SameChildren.trans h h'
  | attributes =>
    exact ⟨fun row tag target before =>
        (h.known row tag target before).trans (h'.known row tag target before),
      fun target => (h.component target).trans (h'.component target),
      fun tag target => (h.nested tag target).trans (h'.nested tag target)⟩
  | markup inText => exact ⟨h.1.trans h'.1, SameChildren.trans h.2 h'.2⟩
  | expressions => exact ⟨h.1.trans h'.1, h.2.trans h'.2⟩

/-- Children are lowered as themselves. -/
theorem SameChildren.refl (inText : Bool) (ns : List Node) :
    SameChildren overrides inText ns ns := by
  cases inText with
  | false => exact rfl
  | true => exact fun _ => rfl

/-- In every region, a list is lowered as itself. -/
theorem Region.Same.refl (r : Region) (ns : List Node) : r.Same overrides ns ns := by
  cases r with
  | children inText => exact SameChildren.refl inText ns
  | attributes => exact ⟨fun _ _ _ _ => rfl, fun _ => rfl, fun _ _ => rfl⟩
  | markup inText => exact ⟨rfl, SameChildren.refl inText ns⟩
  | expressions => exact ⟨rfl, rfl⟩

end SideBySide

/-! ### Markup -/

/-- An element with a row shows text only if its row says so. -/
theorem isTextLike_of_row {overrides : Overrides} {tag : TagName} {found : ResolvedRow}
    (h : overrides.rowOf? tag = some found) :
    isTextLike overrides tag.text = found.row.roles.textLike := by
  rcases Overrides.rowOf?_eq_some h with hrow | ⟨hnone, -, rfl⟩
  · rw [isTextLike, hrow, Option.any_some]
  · rw [isTextLike, hnone]
    rfl

/-- A component never shows text only. -/
theorem isTextLike_of_component {overrides : Overrides} {tag : TagName}
    (h : overrides.rowOf? tag = none) : isTextLike overrides tag.text = false := by
  have hnone : overrides.resolve? tag.text = none := by
    cases hrow : overrides.resolve? tag.text with
    | none => rfl
    | some found => rw [Overrides.rowOf?, hrow] at h; cases h
  rw [isTextLike, hnone, Option.any_none]

/-- The text of an element inside a text: its own, if it shows text only, and else it is left out.
-/
theorem collectText_element (overrides : Overrides) (target : String) {n : Node} {el : Element}
    (h : n.element? = some el) :
    collectText overrides target n =
      if isTextLike overrides el.tag.text then do
        let added ← lowerNestedAttributes el.tag.text target el.attributes
        let inner ← collectTexts overrides target el.children
        return { additions := added } ++ inner
      else leftOut ("<" ++ el.tag.text ++ "> dropped: " ++ target ++ " takes text only") := by
  obtain ⟨place, p₁, f₂, p₂, more, f₃, p₃, closing, rfl⟩ := Node.element?_eq_some h
  rw [collectText]

/-- An element shows its tag. -/
theorem face_element {n : Node} {el : Element} (h : n.element? = some el) :
    n.face = ⟨.markup, 0, [⟨.element, 0, [⟨.opening el.tag, 0, []⟩]⟩]⟩ := by
  obtain ⟨place, p₁, f₂, p₂, more, f₃, p₃, closing, rfl⟩ := Node.element?_eq_some h
  rfl

/-- Markup with the same face has the same summary. -/
theorem markupSummary_of_face {n n' : Node} (h : n.face = n'.face) :
    markupSummary n = markupSummary n' := by
  have hsummary := keepsSummary ⟨.markup, 0, [n]⟩ 1
  have hsummary' := keepsSummary ⟨.markup, 0, [n']⟩ 1
  exact hsummary.symm.trans ((congrArg (summaryWithin 1) h).trans hsummary')

section Element

variable {overrides : Overrides} {n n' : Node} {el el' : Element}

/-- Elements with the same tag, attributes and children become the same widget. -/
theorem lowerElement_same (htag : el.tag = el'.tag)
    (hattributes : SameAttributes overrides el.attributes el'.attributes)
    (hchildren : SameChildren overrides (isTextLike overrides el.tag.text) el.children
      el'.children) : lowerElement overrides el = lowerElement overrides el' := by
  obtain ⟨tag, attributes, children⟩ := el
  obtain ⟨tag', attributes', children'⟩ := el'
  obtain rfl : tag = tag' := htag
  dsimp only at hattributes hchildren
  cases hrow : overrides.rowOf? tag with
  | none =>
    rw [lowerElement_of_component hrow, lowerElement_of_component hrow, lowerComponent,
      lowerComponent]
    rw [isTextLike_of_component hrow] at hchildren
    have hnodes : lowerNodes overrides children = lowerNodes overrides children' := hchildren
    dsimp only
    rw [hattributes.component, hnodes]
  | some found =>
    rw [lowerElement_of_row hrow, lowerElement_of_row hrow, lowerKnown, lowerKnown]
    rw [isTextLike_of_row hrow] at hchildren
    dsimp only
    rw [hattributes.known]
    -- What is asked of the children is asked for the sort of element.
    cases htext : found.row.roles.textLike with
    | true =>
      rw [htext] at hchildren
      have htexts := hchildren found.target
      simp only [if_true, htexts]
    | false =>
      rw [htext] at hchildren
      have hnodes : lowerNodes overrides children = lowerNodes overrides children' := hchildren
      simp only [Bool.false_eq_true, if_false, hnodes]

/-- **Elements with the same tag are lowered alike** if their attributes and their children are. -/
theorem element_same (hn : n.element? = some el) (hn' : n'.element? = some el')
    (htag : el.tag = el'.tag) (hattributes : SameAttributes overrides el.attributes el'.attributes)
    (hchildren : SameChildren overrides (isTextLike overrides el.tag.text) el.children
      el'.children) (inText : Bool) :
    Region.Same overrides (.markup inText) [n] [n'] := by
  refine ⟨?_, ?_⟩
  · rw [List.map_singleton, List.map_singleton, face_element hn, face_element hn', htag]
  -- within a text the element is merged, so both sides are compared as pieces
  · cases inText with
    | false =>
      change lowerNodes overrides [n] = lowerNodes overrides [n']
      rw [lowerNodes_singleton, lowerNodes_singleton, lowerNode_element hn, lowerNode_element hn',
        lowerElement_same htag hattributes hchildren]
    | true =>
      intro target
      rw [collectTexts_singleton, collectTexts_singleton, collectText_element overrides target hn,
        collectText_element overrides target hn', ← htag, hattributes.nested]
      split
      · next htext =>
        rw [htext] at hchildren
        rw [hchildren target]
      · rfl

/-- Fragments are lowered alike if their children are. -/
theorem fragment_same {ns ns' : List Node} {inText : Bool} (p p' : Place)
    (h : SameChildren overrides inText ns ns') :
    Region.Same overrides (.markup inText) [⟨.fragment, p, ns⟩] [⟨.fragment, p', ns'⟩] := by
  refine ⟨rfl, ?_⟩
  cases inText with
  | false =>
    change lowerNodes overrides [_] = lowerNodes overrides [_]
    rw [lowerNodes_singleton, lowerNodes_singleton, lowerNode, lowerNode]
    exact h
  | true =>
    intro target
    rw [collectTexts_singleton, collectTexts_singleton, collectText, collectText, h target]

end Element

/-! ### Expressions -/

section Expressions

variable {overrides : Overrides} {e e' : Node} (p p' : Place)

/-- Whether there is an expression at all goes by the form. -/
theorem absent_iff_of_outline (h : e.outline = e'.outline) :
    e.form = .absent ↔ e'.form = .absent := by
  rw [← e.form_outline, h, e'.form_outline]

/-- Braces around an expression, as the lowering of a child reads them. -/
theorem lowerNode_container (e : Node) :
    lowerNode overrides ⟨.container, p, [e]⟩ =
      if e.form = .absent then return []
      else
        match plainText? e with
        | some s => return if Text.isAllBlank s then [] else [.ofText s]
        | none => lowerNode overrides e := by
  obtain ⟨form, q, parts⟩ := e
  by_cases habsent : form = .absent
  · subst habsent
    rw [lowerNode]
    rfl
  · rewrite [lowerNode, if_neg habsent]
    · rfl
    · rintro q' parts' ⟨⟩
      exact habsent rfl

/-- Braces, parentheses and marks hold one expression. -/
theorem lowerNode_of_length_ne_one {form : Form} {ns : List Node}
    (hform : form ∈ [.container, .spreadChild, .paren, .asConst, .nonNull])
    (h : ns.length ≠ 1) : lowerNode overrides ⟨form, p, ns⟩ = lowerUnread ⟨form, p, ns⟩ := by
  simp only [List.mem_cons, List.not_mem_nil, or_false] at hform
  rcases ns with _ | ⟨⟨first, _, _⟩, _ | ⟨_, _⟩⟩
  · rcases hform with rfl | rfl | rfl | rfl | rfl <;> rfl
  · exact absurd rfl h
  · rcases hform with rfl | rfl | rfl | rfl | rfl
    · -- Whether the first part is missing makes no difference here.
      cases first <;> rfl
    all_goals rfl

/-- An expression with a type has two parts. -/
theorem lowerNode_of_length_ne_two {form : Form} {ns : List Node}
    (hform : form = .asType ∨ form = .satisfies) (h : ns.length ≠ 2) :
    lowerNode overrides ⟨form, p, ns⟩ = lowerUnread ⟨form, p, ns⟩ := by
  rcases ns with _ | ⟨_, _ | ⟨_, _ | ⟨_, _⟩⟩⟩
  · rcases hform with rfl | rfl <;> rfl
  · rcases hform with rfl | rfl <;> rfl
  · exact absurd rfl h
  · rcases hform with rfl | rfl <;> rfl

/-- The text of braces is that of the expression in them. -/
theorem collectText_container (target : String) (e : Node) :
    collectText overrides target ⟨.container, p, [e]⟩ =
      if e.form = .absent then return {} else expressionText e := by
  obtain ⟨form, q, parts⟩ := e
  by_cases habsent : form = .absent
  · subst habsent
    rw [collectText]
    rfl
  · rw [collectText, if_neg habsent]
    rintro q' parts' ⟨⟩
    exact habsent rfl

/-- Braces around expressions that are lowered alike are lowered alike, if the outlines tell the
same text. -/
theorem lowerNode_container_same (houtline : e.outline = e'.outline)
    (hlower : lowerNode overrides e = lowerNode overrides e') :
    lowerNode overrides ⟨.container, p, [e]⟩ = lowerNode overrides ⟨.container, p', [e']⟩ := by
  rw [lowerNode_container, lowerNode_container, hlower,
    eq_of_outline plainText?_outline houtline]
  simp only [absent_iff_of_outline houtline]

/-- Hence braces are the same child around the same expressions. -/
theorem braces_same (inText : Bool) (h : Region.Same overrides .expressions [e] [e']) :
    SameChildren overrides inText [⟨.container, p, [e]⟩] [⟨.container, p', [e']⟩] := by
  obtain ⟨houtline, hlower⟩ := h
  have houtline : e.outline = e'.outline := List.singleton_inj.mp houtline
  have hlower : lowerNode overrides e = lowerNode overrides e' := List.singleton_inj.mp hlower
  cases inText with
  | false =>
    change lowerNodes overrides [_] = lowerNodes overrides [_]
    rw [lowerNodes_singleton, lowerNodes_singleton, lowerNode_container_same p p' houtline hlower]
  | true =>
    intro target
    rw [collectTexts_singleton, collectTexts_singleton, collectText_container,
      collectText_container, eq_of_outline expressionText_outline houtline]
    simp only [absent_iff_of_outline houtline]

/-- A spread child only shows the outline of its expression. -/
theorem spreadChild_same (inText : Bool) (h : e.outline = e'.outline) :
    SameChildren overrides inText [⟨.spreadChild, p, [e]⟩] [⟨.spreadChild, p', [e']⟩] := by
  cases inText with
  | false =>
    change lowerNodes overrides [_] = lowerNodes overrides [_]
    rw [lowerNodes_singleton, lowerNodes_singleton]
    exact eq_of_outline lowerUnread_outline h
  | true =>
    intro target
    rw [collectTexts_singleton, collectTexts_singleton, collectText, collectText,
      eq_of_outline summary_outline h]

/-- The lowering of what holds one expression goes by the outline and the lowering of that. -/
theorem lowerNode_singleton_same {form : Form}
    (hform : form ∈ [.container, .spreadChild, .paren, .asConst, .nonNull])
    (houtline : e.outline = e'.outline) (hlower : lowerNode overrides e = lowerNode overrides e') :
    lowerNode overrides ⟨form, p, [e]⟩ = lowerNode overrides ⟨form, p', [e']⟩ := by
  simp only [List.mem_cons, List.not_mem_nil, or_false] at hform
  rcases hform with rfl | rfl | rfl | rfl | rfl
  · exact lowerNode_container_same p p' houtline hlower
  · exact eq_of_outline lowerUnread_outline houtline
  all_goals rw [lowerNode, lowerNode, hlower]

/-- The lowering of an expression goes by its outline and by the lowering of its parts. -/
theorem lowerNode_part {form : Form} {ns ns' : List Node} (helement : form ≠ .element)
    (hmarkup : form ≠ .markup) (h : Region.Same overrides .expressions ns ns') :
    lowerNode overrides ⟨form, p, ns⟩ = lowerNode overrides ⟨form, p', ns'⟩ := by
  obtain ⟨houtlines, hlowers⟩ := h
  have houtline : Node.outline ⟨form, p, ns⟩ = Node.outline ⟨form, p', ns'⟩ := by
    rw [Node.outline_mk (Or.inl hmarkup), Node.outline_mk (Or.inl hmarkup), Node.outlines_eq_map,
      Node.outlines_eq_map, houtlines]
  have hunread := eq_of_outline lowerUnread_outline houtline
  have hlength : ns.length = ns'.length := by simpa using congrArg List.length houtlines
  -- A few forms lower one of their parts, if they have as many as they should. All others, and
  -- these with other parts, only say what the expression is.
  cases form
  case element => exact absurd rfl helement
  case markup => exact absurd rfl hmarkup
  case text raw => rw [lowerNode, lowerNode]
  case fragment =>
    rw [lowerNode, lowerNode]
    exact lowerNodes_of_map hlowers
  case container | spreadChild | paren | asConst | nonNull =>
    by_cases hone : ns.length = 1
    · obtain ⟨e, rfl⟩ := List.length_eq_one_iff.mp hone
      obtain ⟨e', rfl⟩ := List.length_eq_one_iff.mp (hlength ▸ hone)
      exact lowerNode_singleton_same p p' (by decide) (List.singleton_inj.mp houtlines)
        (List.singleton_inj.mp hlowers)
    · rw [lowerNode_of_length_ne_one p (by decide) hone,
        lowerNode_of_length_ne_one p' (by decide) (hlength ▸ hone)]
      exact hunread
  case asType | satisfies =>
    by_cases htwo : ns.length = 2
    · obtain ⟨e, type, rfl⟩ := List.length_eq_two.mp htwo
      obtain ⟨e', type', rfl⟩ := List.length_eq_two.mp (hlength ▸ htwo)
      rw [lowerNode, lowerNode]
      exact (List.cons_eq_cons.mp hlowers).1
    · rw [lowerNode_of_length_ne_two p (by decide) htwo,
        lowerNode_of_length_ne_two p' (by decide) (hlength ▸ htwo)]
      exact hunread
  all_goals exact hunread

/-- A node that is neither an element nor markup is the same expression if its parts are. -/
theorem part_same {form : Form} {ns ns' : List Node} (helement : form ≠ .element)
    (hmarkup : form ≠ .markup) (h : Region.Same overrides .expressions ns ns') :
    Region.Same overrides .expressions [⟨form, p, ns⟩] [⟨form, p', ns'⟩] := by
  refine ⟨?_, ?_⟩
  · rw [List.map_singleton, List.map_singleton, Node.outline_mk (Or.inl hmarkup),
      Node.outline_mk (Or.inl hmarkup), Node.outlines_eq_map, Node.outlines_eq_map, h.1]
  · rw [List.map_singleton, List.map_singleton, lowerNode_part p p' helement hmarkup h]

/-- Markup is the same expression if the element in it is lowered alike. -/
theorem markup_same {n n' : Node} (h : Region.Same overrides (.markup false) [n] [n']) :
    Region.Same overrides .expressions [⟨.markup, p, [n]⟩] [⟨.markup, p', [n']⟩] := by
  obtain ⟨hface, hlower⟩ := h
  have hlower : lowerNodes overrides [n] = lowerNodes overrides [n'] := hlower
  rw [lowerNodes_singleton, lowerNodes_singleton] at hlower
  refine ⟨hface, ?_⟩
  rw [List.map_singleton, List.map_singleton, lowerNode, lowerNode, hlower]

end Expressions

/-! ### Attributes -/

section Attributes

variable {overrides : Overrides} {attr attr' : Node} {g g' : GivenAttribute}

/-- Single attributes that are read alike are the same. -/
theorem attribute_same (hattr : GivenAttribute.ofNode? attr = some g)
    (hattr' : GivenAttribute.ofNode? attr' = some g') (h : g.Alike overrides g') :
    SameAttributes overrides [attr] [attr'] where
  known row tag target before := by
    simp only [lowerAttributes, lowerAttribute_congr hattr hattr' h]
  component target := by
    simp only [lowerComponentAttributes, lowerComponentAttribute_congr hattr hattr' h]
  nested tag target := by
    simp only [lowerNestedAttributes, lowerNestedAttribute_congr hattr hattr' h]

variable {e e' n n' : Node} (p p' q q' : Place)

/-- A spread attribute only shows the outline of its expression. -/
theorem spread_same (h : e.outline = e'.outline) :
    SameAttributes overrides [⟨.spread, p, [e]⟩] [⟨.spread, p', [e']⟩] :=
  attribute_same rfl rfl (.spread h)

/-- The value of an attribute in braces. -/
theorem ofAttribute_braces (name : AttributeName) (e : Node) :
    GivenValue.ofAttribute ⟨.attr name, p, [⟨.container, q, [e]⟩]⟩ =
      if e.form = .absent then .standsAlone else .ofExpr e := by
  obtain ⟨form, q', parts⟩ := e
  by_cases habsent : form = .absent
  · subst habsent
    rfl
  · rw [if_neg habsent]
    cases form
    case absent => exact absurd rfl habsent
    all_goals rfl

/-- An attribute may have markup as its value, without braces. -/
theorem ofAttribute_markup (name : AttributeName) (hn : n.IsMarkup) :
    GivenValue.ofAttribute ⟨.attr name, p, [n]⟩ = .markup n := by
  obtain ⟨form, q, parts⟩ := n
  rcases hn with (rfl : form = _) | (rfl : form = _) <;> rfl

/-- Attributes are lowered alike if the expressions in their braces are the same. -/
theorem value_same (name : AttributeName) (h : Region.Same overrides .expressions [e] [e']) :
    SameAttributes overrides [⟨.attr name, p, [⟨.container, q, [e]⟩]⟩]
      [⟨.attr name, p', [⟨.container, q', [e']⟩]⟩] := by
  have houtline : e.outline = e'.outline := List.singleton_inj.mp h.1
  have hlower : lowerNode overrides e = lowerNode overrides e' := List.singleton_inj.mp h.2
  refine attribute_same rfl rfl (.named name.text ?_ fun n n' hn hn' => ?_)
  · rw [ofAttribute_braces, ofAttribute_braces]
    simp only [absent_iff_of_outline houtline]
    split
    · exact .standsAlone
    · exact GivenValue.ofExpr_alike houtline
  · -- Markup in braces is lowered as the braces are.
    have hbraces := lowerNode_container_same q q' houtline hlower
    rwa [eq_attributeMarkup_of_inner (fun _ _ => lowerNode_inner) hn,
      eq_attributeMarkup_of_inner (fun _ _ => lowerNode_inner) hn'] at hbraces

/-- So are attributes whose values are markup that is lowered alike. -/
theorem markupValue_same (name : AttributeName) (hn : n.IsMarkup) (hn' : n'.IsMarkup)
    (h : Region.Same overrides (.markup false) [n] [n']) :
    SameAttributes overrides [⟨.attr name, p, [n]⟩] [⟨.attr name, p', [n']⟩] := by
  obtain ⟨hface, hlower⟩ := h
  have hface : n.face = n'.face := List.singleton_inj.mp hface
  have hlower : lowerNodes overrides [n] = lowerNodes overrides [n'] := hlower
  rw [lowerNodes_singleton, lowerNodes_singleton] at hlower
  refine attribute_same rfl rfl (.named name.text ?_ fun m m' hm hm' => ?_)
  · rw [ofAttribute_markup p name hn, ofAttribute_markup p' name hn']
    exact .markup (markupSummary_of_face hface)
  · rw [ofAttribute_markup p name hn] at hm
    rw [ofAttribute_markup p' name hn'] at hm'
    cases hm
    cases hm'
    exact hlower

end Attributes

/-! ### The law -/

/-- **Rewriting keeps what its steps keep.** -/
theorem Rewrites.sameIn {overrides : Overrides} {step : Region → List Node → List Node → Prop}
    (hstep : ∀ r ns ns', step r ns ns' → r.Same overrides ns ns') {r : Region}
    {ns ns' : List Node} (h : Rewrites overrides step r ns ns') : r.Same overrides ns ns' := by
  -- one lemma for each place a rewriting can stand in
  induction h with
  | here h => exact hstep _ _ _ h
  | same r ns => exact .refl r ns
  | trans _ _ ih ih' => exact ih.trans ih'
  | append _ _ ih ih' => exact ih.append ih'
  | element hn hn' htag _ _ ihattributes ihchildren =>
    exact element_same hn hn' htag ihattributes ihchildren _
  | fragment p p' _ ih => exact fragment_same p p' ih
  | child _ ih => exact ih.2
  | braces inText p p' _ ih => exact braces_same p p' inText ih
  | spreadChild inText p p' _ ih => exact spreadChild_same p p' inText (List.singleton_inj.mp ih.1)
  | value name p p' q q' _ ih => exact value_same p p' q q' name ih
  | markupValue name p p' hn hn' _ ih => exact markupValue_same p p' name hn hn' ih
  | spread p p' _ ih => exact spread_same p p' (List.singleton_inj.mp ih.1)
  | markup p p' _ ih => exact markup_same p p' ih
  | part p p' helement hmarkup _ ih => exact part_same p p' helement hmarkup ih

/-- **Rewritten markup is lowered to the same widget, with the same notes.** -/
theorem Rewrites.lower_eq (b : Builder) {step : Region → List Node → List Node → Prop}
    (hstep : ∀ r ns ns', step r ns ns' → r.Same b.overrides ns ns') {n n' : Node}
    (h : Rewrites b.overrides step (.markup false) [n] [n']) : b.lower n = b.lower n' := by
  have hlower : lowerNodes b.overrides [n] = lowerNodes b.overrides [n'] := (h.sameIn hstep).2
  rw [lowerNodes_singleton, lowerNodes_singleton] at hlower
  rw [Builder.lower, Builder.lower, lowerMarkup, lowerMarkup, hlower]

end JsxWidgets
