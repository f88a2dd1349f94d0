import JsxWidgets.Proofs.Lowering.Texts

/-!
# What the lowering notes

The lowering goes from an element to its children and to the markup in its attributes, through
braces and parentheses, and it notes three kinds of things on its way: components, class names, and
messages. So a property of notes that is kept when notes are joined holds of all that is noted for a
node, if it holds of each single note (`keeps_lowerNode`). Where the lowering goes is a parameter of
this (`Route`): the induction is the same whether the claim is about all nodes below, or about those
that some other analysis sees as well.
-/

namespace JsxWidgets

open Syntax Expression

/-- **Where the lowering goes**: the nodes that it lowers and the attributes that it looks at lead
to no others. -/
structure Route (child attr : Node → Prop) : Prop where
  /-- What stands for a child in braces, parentheses or type assertions. -/
  inner : ∀ {n e}, child n → n.childForm = .inner e → child e
  /-- The children of a fragment. -/
  fragment : ∀ {place nodes}, child ⟨.fragment, place, nodes⟩ → ∀ m ∈ nodes, child m
  /-- The children of an element. -/
  children : ∀ {n el}, child n → n.element? = some el → ∀ m ∈ el.children, child m
  /-- The attributes of an element. -/
  attributes : ∀ {n el}, child n → n.element? = some el → ∀ a ∈ el.attributes, attr a
  /-- The markup in an attribute. -/
  markup : ∀ {a name m}, attr a →
    GivenAttribute.ofNode? a = some (.named name (.markup m)) → child m

/-- **A property of notes that holds of each single one** on a route, and is kept when notes are
joined. -/
structure Route.Keeps (overrides : Overrides) (child attr : Node → Prop) (Q : Notes → Prop) :
    Prop where
  /-- Joined notes. -/
  append : ∀ {a b}, Q a → Q b → Q (a ++ b)
  /-- Messages. -/
  reports : ∀ ds, Q { diagnostics := ds }
  /-- A component. -/
  component : ∀ {n el}, child n → n.element? = some el → overrides.rowOf? el.tag = none →
    Q { components := [el.tag.text] }
  /-- The class names in an attribute. -/
  classes : ∀ {a g}, attr a → GivenAttribute.ofNode? a = some g →
    Q { classNames := g.classTokens }

namespace Route

variable {overrides : Overrides} {child attr : Node → Prop} {Q : Notes → Prop}

theorem Keeps.empty (hQ : Keeps overrides child attr Q) : Q {} := hQ.reports []

theorem Keeps.join (hQ : Keeps overrides child attr Q) {notes : List Notes}
    (h : ∀ a ∈ notes, Q a) : Q (.join notes) := by
  induction notes with
  | nil => exact hQ.empty
  | cons a notes ih =>
    rw [Notes.join_cons]
    exact hQ.append (h a List.mem_cons_self) (ih fun b hb => h b (List.mem_cons_of_mem a hb))

/-- Class names that are noted together. -/
theorem Keeps.flatMap {α : Type} (hQ : Keeps overrides child attr Q) {xs : List α}
    {tokens : α → List String} (h : ∀ x ∈ xs, Q { classNames := tokens x }) :
    Q { classNames := xs.flatMap tokens } := by
  induction xs with
  | nil => exact hQ.empty
  | cons x xs ih =>
    exact hQ.append (h x List.mem_cons_self) (ih fun y hy => h y (List.mem_cons_of_mem x hy))

/-- Class names with messages behind them. -/
theorem Keeps.reported (hQ : Keeps overrides child attr Q) {tokens : List String}
    (h : Q { classNames := tokens }) (ds : List (Diagnostic Location)) :
    Q { classNames := tokens, diagnostics := ds } := by
  have hjoined := hQ.append h (hQ.reports ds)
  change Q ⟨tokens ++ [], [], ds⟩ at hjoined
  rwa [List.append_nil] at hjoined

variable (hroute : Route child attr) (hQ : Keeps overrides child attr Q)

section Keeps

include hQ

/-- The class names in several attributes. -/
theorem keeps_attributes {attributes : List Node} (h : ∀ a ∈ attributes, attr a) :
    Q { classNames := (attributes.filterMap GivenAttribute.ofNode?).flatMap (·.classTokens) } := by
  refine hQ.flatMap fun g hg => ?_
  obtain ⟨a, ha, hgiven⟩ := List.mem_filterMap.mp hg
  exact hQ.classes (h a ha) hgiven

/-- Several nodes, as far as the claim is known of each of them. -/
theorem keeps_lowerNodes {ns : List Node} (h : ∀ n ∈ ns, Q (lowerNode overrides n).notes) :
    Q (lowerNodes overrides ns).notes := by
  rw [lowerNodes_notes]
  refine hQ.join fun a ha => ?_
  obtain ⟨n, hn, rfl⟩ := List.mem_map.mp ha
  exact h n hn

end Keeps

/-! ### Inside a text -/

omit hroute hQ in
/-- Several children of a text, as far as the claim is known of each of them. -/
theorem keeps_intrusionsOf {ns : List Node}
    (h : ∀ n ∈ ns, ∀ lost ∈ n.intrusions overrides, Q { classNames := lost.classTokens }) :
    ∀ lost ∈ Node.intrusionsOf overrides ns, Q { classNames := lost.classTokens } := by
  induction ns with
  | nil =>
    intro lost hlost
    cases hlost
  | cons n ns ih =>
    intro lost hlost
    rw [Node.intrusionsOf] at hlost
    rcases List.mem_append.mp hlost with hlost | hlost
    · exact h n List.mem_cons_self lost hlost
    · exact ih (fun m hm => h m (List.mem_cons_of_mem n hm)) lost hlost

include hroute hQ

/-- Something inside a text that is not text. -/
theorem keeps_intrusions {n : Node} (hn : child n) :
    ∀ lost ∈ n.intrusions overrides, Q { classNames := lost.classTokens } := by
  induction n using Node.induction_below with
  | step n ih =>
    obtain ⟨form, place, parts⟩ := n
    unfold Node.intrusions
    intro lost hlost
    split at hlost
    case h_1 | h_2 | h_7 => cases hlost
    case h_3 =>
      split at hlost
      · cases hlost
      · rw [List.mem_singleton.mp hlost]
        exact hQ.empty
    case h_4 tag opened f p attributes more f' p' nodes closing =>
      have hel : Node.element? ⟨.element, place,
          [⟨.opening tag, opened, ⟨f, p, attributes⟩ :: more⟩, ⟨f', p', nodes⟩, closing]⟩
          = some ⟨tag, attributes, nodes⟩ := rfl
      split at hlost
      · -- A merged element: its attributes, and what is inside its children.
        rcases List.mem_append.mp hlost with hlost | hlost
        · obtain ⟨g, hg, rfl⟩ := List.mem_map.mp hlost
          obtain ⟨a, ha, hgiven⟩ := List.mem_filterMap.mp hg
          exact hQ.classes (hroute.attributes hn hel a ha) hgiven
        · refine keeps_intrusionsOf (fun m hm => ?_) lost hlost
          exact ih m (Node.children_below hel m hm) (hroute.children hn hel m hm)
      · rw [List.mem_singleton.mp hlost]
        exact hQ.empty
    case h_5 =>
      refine keeps_intrusionsOf (fun m hm => ?_) lost hlost
      exact ih m (Node.mem_nodesOf_of_mem hm) (hroute.fragment hn m hm)
    case h_6 =>
      rw [List.mem_singleton.mp hlost]
      exact hQ.empty

theorem keeps_collectTexts (target : String) {ns : List Node} (hns : ∀ n ∈ ns, child n) :
    Q (collectTexts overrides target ns).notes := by
  rw [(collectTexts_tells overrides target ns).2]
  have hlost := keeps_intrusionsOf fun n hn => keeps_intrusions hroute hQ (hns n hn)
  exact hQ.reported (hQ.flatMap hlost) _

/-! ### Elements -/

/-- An attribute of a component, as far as the claim is known of the markup in it. -/
theorem keeps_componentNotes (target : String) {a : Node} {g : GivenAttribute} (ha : attr a)
    (hgiven : GivenAttribute.ofNode? a = some g)
    (hmarkup : ∀ m ∈ Node.nodesOf a.parts, child m → Q (lowerNode overrides m).notes) :
    Q (componentNotes overrides target g) := by
  cases g with
  | spread e => exact hQ.reports _
  | named name value =>
    have hclasses := hQ.classes ha hgiven
    simp only [componentNotes]
    split
    next hclass =>
      rwa [GivenAttribute.classTokens, if_pos hclass] at hclasses
    next =>
      split
      · exact hQ.empty
      -- only markup brings notes of its own, and it is reached through the attribute
      · cases value with
        | markup m =>
          exact hmarkup m (attributeMarkup_below hgiven) (hroute.markup ha hgiven)
        | standsAlone | text s | expression e => exact hQ.empty

section Element

variable {n : Node} {el : Element} (hn : child n) (hel : n.element? = some el)
  (ih : ∀ m ∈ Node.nodesOf n.parts, child m → Q (lowerNode overrides m).notes)
include hn hel ih

theorem keeps_children : Q (lowerNodes overrides el.children).notes :=
  keeps_lowerNodes hQ fun m hm =>
    ih m (Node.children_below hel m hm) (hroute.children hn hel m hm)

theorem keeps_lowerComponent (hrow : overrides.rowOf? el.tag = none) :
    Q (lowerComponent overrides el).notes := by
  have hattributes : Q (lowerComponentAttributes overrides el.tag.text el.attributes).notes := by
    rw [lowerComponentAttributes_notes]
    refine hQ.join fun notes hnotes => ?_
    obtain ⟨g, hg, rfl⟩ := List.mem_map.mp hnotes
    obtain ⟨a, ha, hgiven⟩ := List.mem_filterMap.mp hg
    have hbelow := Node.attributes_below hel a ha
    exact keeps_componentNotes hroute hQ _ (hroute.attributes hn hel a ha) hgiven
      fun m hm => ih m (Node.mem_nodesOf_trans hbelow hm)
  rw [lowerComponent_notes]
  exact hQ.append (hQ.component hn hel hrow)
    (hQ.append hattributes (keeps_children hroute hQ hn hel ih))

theorem keeps_lowerKnown (found : ResolvedRow) : Q (lowerKnown overrides found el).notes := by
  have hattributes : Q (knownAttributes el found).notes := by
    rw [lowerAttributes_notes]
    exact hQ.reported (keeps_attributes hQ (hroute.attributes hn hel)) _
  -- a text collects what stands below it, a box lowers its children
  cases htext : found.row.roles.textLike with
  | true =>
    rw [lowerKnown_notes_text overrides el found htext]
    exact hQ.append hattributes (keeps_collectTexts hroute hQ _ (hroute.children hn hel))
  | false =>
    have hdropped : ∀ ws, Q (found.row.slot.dropped found.target ws).notes := by
      intro ws
      unfold Slot.dropped
      split
      · exact hQ.reports _
      · exact hQ.empty
    rw [lowerKnown_notes_box overrides el found htext]
    exact hQ.append hattributes (hQ.append (keeps_children hroute hQ hn hel ih) (hdropped _))

end Element

/-- **What holds of every single note holds of all that is noted** for a child. -/
theorem keeps_lowerNode {n : Node} (hn : child n) : Q (lowerNode overrides n).notes := by
  induction n using Node.induction_below with
  | step n ih =>
    rw [lowerNode_eq]
    -- one case for each form a child may have
    cases hform : n.childForm with
    | text shown => exact hQ.empty
    | element el =>
      have hel := element?_of_childForm hform
      rw [Noted.notes_map]
      cases hrow : overrides.rowOf? el.tag with
      | none =>
        rw [lowerElement_of_component hrow]
        exact keeps_lowerComponent hroute hQ hn hel ih hrow
      | some found =>
        have htag : Q (noteTag overrides el.tag.text).notes := by
          rw [noteTag]
          split
          · exact hQ.reports _
          · exact hQ.empty
        rw [lowerElement_of_row hrow, Noted.notes_bind]
        exact hQ.append htag (keeps_lowerKnown hroute hQ hn hel ih found)
    | fragment nodes =>
      obtain ⟨place, rfl⟩ := fragment_of_childForm hform
      exact keeps_lowerNodes hQ fun m hm =>
        ih m (Node.mem_nodesOf_of_mem hm) (hroute.fragment hn m hm)
    | inner e => exact ih e (inner_below hform) (hroute.inner hn hform)
    | spread e => exact hQ.reports _
    | expression e => exact hQ.reports _

theorem keeps_lowerMarkup {markup : Node} (h : child markup) :
    Q (lowerMarkup overrides markup).notes := by
  rw [lowerMarkup, Noted.notes_map]
  exact keeps_lowerNode hroute hQ h

end Route

end JsxWidgets
