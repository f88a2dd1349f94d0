import JsxWidgets.Proofs.Syntax.Nodes
import JsxWidgets.Proofs.Widget.Noted

/-!
# Forms of children

The lowering of a child looks through braces, parentheses and type assertions, and then only asks
what kind of child there is: a text, an element, a fragment, or something that is not evaluated.
`Node.childForm` is the answer, and `lowerNode_eq` says once what the lowering does with it.
Whatever is proved about all lowered trees goes by induction on the nodes below a child
(`Node.induction_below`) and by this equation; `lowerNode` is not unfolded again.

An element is lowered by its row of the table, or by the row for unknown elements, or it is a
component, which has no row (`Overrides.rowOf?`).
-/

namespace JsxWidgets

namespace Syntax

/-- The parts of an element that matter for its widget. -/
structure Element where
  /-- The tag. -/
  tag : TagName
  /-- The attributes and spreads. -/
  attributes : List Node
  /-- What stands between the tags. -/
  children : List Node

namespace Node

/-- A node as an element. -/
def element? : Node → Option Element
  | ⟨.element, _, [⟨.opening tag, _, ⟨_, _, attributes⟩ :: _⟩, ⟨_, _, children⟩, _]⟩ =>
    some ⟨tag, attributes, children⟩
  | _ => none

/-- An element as a node, at the start of its file. -/
def ofElement (el : Element) : Node :=
  ⟨.element, 0, [⟨.opening el.tag, 0, [.list el.attributes, .absent]⟩, .list el.children,
    .leaf (.closing el.tag) 0]⟩

theorem element?_ofElement (el : Element) : (ofElement el).element? = some el := rfl

/-- An element is taken apart into its tag, its attributes and its children. -/
theorem element?_eq_some {n : Node} {el : Element} (h : n.element? = some el) :
    ∃ place p₁ f₂ p₂ more f₃ p₃ closing,
      n = ⟨.element, place, [⟨.opening el.tag, p₁, ⟨f₂, p₂, el.attributes⟩ :: more⟩,
        ⟨f₃, p₃, el.children⟩, closing]⟩ := by
  unfold element? at h
  split at h
  · cases h
    exact ⟨_, _, _, _, _, _, _, _, rfl⟩
  · cases h

/-- The attributes of an element lie below it. -/
theorem attributes_below {n : Node} {el : Element} (h : n.element? = some el) :
    ∀ m ∈ el.attributes, m ∈ nodesOf n.parts := by
  obtain ⟨place, p₁, f₂, p₂, more, f₃, p₃, closing, rfl⟩ := element?_eq_some h
  intro m hm
  simp only [nodesOf, nodes_mk, List.cons_append, List.mem_cons, List.mem_append]
  exact Or.inr (Or.inr (Or.inl (Or.inl (mem_nodesOf_of_mem hm))))

/-- The children of an element lie below it. -/
theorem children_below {n : Node} {el : Element} (h : n.element? = some el) :
    ∀ m ∈ el.children, m ∈ nodesOf n.parts := by
  obtain ⟨place, p₁, f₂, p₂, more, f₃, p₃, closing, rfl⟩ := element?_eq_some h
  intro m hm
  simp only [nodesOf, nodes_mk, List.cons_append, List.mem_cons, List.mem_append]
  exact Or.inr (Or.inr (Or.inr (Or.inr (Or.inl (mem_nodesOf_of_mem hm)))))

end Node

end Syntax

open Syntax Expression

/-! ### The kind of a child -/

/-- What a child is to the lowering. -/
inductive ChildForm where
  /-- A text, unless there is nothing to show. -/
  | text (shown : Option String)
  /-- An element. -/
  | element (el : Element)
  /-- Children without a tag around them. -/
  | fragment (nodes : List Node)
  /-- What stands for the child inside braces, parentheses or a type assertion. -/
  | inner (e : Node)
  /-- All values of an iterable. -/
  | spread (e : Node)
  /-- Something that is not evaluated. -/
  | expression (e : Node)

/-- A text, unless nothing of it is left when it is put on one line. -/
def shownText? (raw : String) : Option String :=
  if (Text.normalize raw).isEmpty then none else some (Text.normalize raw)

/-- A text that an expression gives, unless it is blank. -/
def shownLiteral? (s : String) : Option String := if Text.isAllBlank s then none else some s

/-- What a node is to the lowering as a child. -/
def Syntax.Node.childForm : Node → ChildForm
  | ⟨form, place, parts⟩ =>
    match form, parts with
    | .text raw, _ => .text (shownText? raw)
    | .element, [⟨.opening tag, _, ⟨_, _, attributes⟩ :: _⟩, ⟨_, _, nodes⟩, _] =>
      .element ⟨tag, attributes, nodes⟩
    | .fragment, nodes => .fragment nodes
    | .container, [⟨.absent, _, _⟩] => .text none
    | .container, [e] =>
      match plainText? e with
      | some s => .text (shownLiteral? s)
      | none => .inner e
    | .spreadChild, [e] => .spread e
    | .paren, [e] => .inner e
    | .asType, [e, _] => .inner e
    | .asConst, [e] => .inner e
    | .satisfies, [e, _] => .inner e
    | .nonNull, [e] => .inner e
    | .markup, [n] => .inner n
    | _, _ => .expression ⟨form, place, parts⟩

/-- What is taken apart as an element is an element as a child. -/
theorem childForm_of_element? {n : Node} {el : Element} (h : n.element? = some el) :
    n.childForm = .element el := by
  obtain ⟨place, p₁, f₂, p₂, more, f₃, p₃, closing, rfl⟩ := Node.element?_eq_some h
  rfl

/-- And what is an element as a child is taken apart as one. -/
theorem element?_of_childForm {n : Node} {el : Element} (h : n.childForm = .element el) :
    n.element? = some el := by
  unfold Node.childForm at h
  split at h
  -- What is left are the cases of an element and of braces, which hold a text or an expression.
  split at h <;> try cases h
  · rfl
  · split at h <;> cases h

/-- What stands for a child lies below it. -/
theorem inner_below {n e : Node} (h : n.childForm = .inner e) : e ∈ Node.nodesOf n.parts := by
  unfold Node.childForm at h
  split at h
  split at h <;> try cases h
  -- Braces hold what stands for the child if it is no text.
  case h_5 =>
    split at h <;> cases h
    exact Node.mem_nodesOf_of_mem List.mem_cons_self
  all_goals exact Node.mem_nodesOf_of_mem List.mem_cons_self

/-- What is the same for a child and what stands for it is the same behind parentheses and type
assertions. -/
theorem eq_unwrap_of_inner {β : Type} {f : Node → β}
    (h : ∀ n e, n.childForm = .inner e → f n = f e) (e : Node) : f e.unwrap = f e := by
  fun_induction Node.unwrap e with
  | case1 place e ih | case2 place e type ih | case3 place e ih | case4 place e type ih
  | case5 place e ih => exact ih.trans (h _ e rfl).symm
  | case6 => rfl

/-- A fragment as a child is one. -/
theorem fragment_of_childForm {n : Node} {nodes : List Node} (h : n.childForm = .fragment nodes) :
    ∃ place, n = ⟨.fragment, place, nodes⟩ := by
  unfold Node.childForm at h
  split at h
  -- What is left are the cases of a fragment and of braces.
  split at h <;> try cases h
  · exact ⟨_, rfl⟩
  · split at h <;> cases h

/-! ### Elements -/

/-- The row by which an element is lowered: that of its tag, or the one for unknown elements. A
component has none. -/
def Overrides.rowOf? (overrides : Overrides) (tag : TagName) : Option ResolvedRow :=
  match overrides.resolve? tag.text with
  | some found => some found
  | none => if tag.isCustom then none else some ⟨.fallback, ElementRow.fallback.target⟩

/-- The row of a tag is that of the table, or the one for unknown elements. -/
theorem Overrides.rowOf?_eq_some {overrides : Overrides} {tag : TagName} {found : ResolvedRow}
    (h : overrides.rowOf? tag = some found) :
    overrides.resolve? tag.text = some found ∨
      (overrides.resolve? tag.text = none ∧ tag.isCustom = false ∧
        found = ⟨.fallback, ElementRow.fallback.target⟩) := by
  unfold rowOf? at h
  split at h
  · next hrow =>
    rw [hrow]
    exact Or.inl h
  · -- The row for unknown elements is for what is no component.
    next hrow =>
    split at h
    · cases h
    · next hcustom => exact Or.inr ⟨hrow, by simpa using hcustom, (Option.some.inj h).symm⟩

/-- A row is one of the table, or the one for unknown elements. -/
theorem Overrides.rowOf?_mem {overrides : Overrides} {tag : TagName} {found : ResolvedRow}
    (h : overrides.rowOf? tag = some found) :
    found.row ∈ ElementRow.table ∨ found.row = .fallback := by
  rcases rowOf?_eq_some h with hrow | ⟨-, -, rfl⟩
  · unfold resolve? at hrow
    obtain ⟨row, hfind, rfl⟩ := Option.map_eq_some_iff.mp hrow
    exact Or.inl (List.mem_of_find?_eq_some hfind)
  · exact Or.inr rfl

/-- The message for a tag that neither the table nor its spelling explains. -/
def unknownTagMessage (tag : String) : String :=
  "<" ++ tag ++ "> has no mapping; lowered as " ++ ElementRow.fallback.target

/-- A tag that is not in the table is noted. -/
def noteTag (overrides : Overrides) (tag : String) : Noted Unit :=
  if (overrides.resolve? tag).isNone then Noted.unmapped (unknownTagMessage tag) else pure ()

/-- The widget of an element with a row. -/
def lowerKnown (overrides : Overrides) (found : ResolvedRow) (el : Element) : Noted Widget := do
  let given ← lowerAttributes found.row el.tag.text found.target el.attributes {}
  if found.row.roles.textLike then
    let content ← collectTexts overrides found.target el.children
    return textWidget found.row el.tag.text found.target given content
  else
    let ws ← lowerNodes overrides el.children
    let remarks ← found.row.slot.dropped found.target ws
    return boxWidget found.row el.tag.text found.target given ws remarks

/-- The widget of a component. -/
def lowerComponent (overrides : Overrides) (el : Element) : Noted Widget := do
  Noted.component el.tag.text
  let given ← lowerComponentAttributes overrides el.tag.text el.attributes
  let ws ← lowerNodes overrides el.children
  return componentWidget el.tag.text given ws

/-- The widget of an element. -/
def lowerElement (overrides : Overrides) (el : Element) : Noted Widget :=
  match overrides.rowOf? el.tag with
  | none => lowerComponent overrides el
  | some found => do
    noteTag overrides el.tag.text
    lowerKnown overrides found el

/-- The lowering of an element as its two cases stand in `lowerNode`. -/
theorem lowerElement_eq (overrides : Overrides) (el : Element) :
    (fun w => [w]) <$> lowerElement overrides el =
      if (overrides.resolve? el.tag.text).isNone && el.tag.isCustom then do
        Noted.component el.tag.text
        let given ← lowerComponentAttributes overrides el.tag.text el.attributes
        let ws ← lowerNodes overrides el.children
        return [componentWidget el.tag.text given ws]
      else do
        let found ← elementRow overrides el.tag.text
        let given ← lowerAttributes found.row el.tag.text found.target el.attributes {}
        if found.row.roles.textLike then
          let content ← collectTexts overrides found.target el.children
          return [textWidget found.row el.tag.text found.target given content]
        else
          let ws ← lowerNodes overrides el.children
          let remarks ← found.row.slot.dropped found.target ws
          return [boxWidget found.row el.tag.text found.target given ws remarks] := by
  unfold lowerElement Overrides.rowOf? noteTag elementRow
  cases hrow : overrides.resolve? el.tag.text with
  | some found =>
    -- With a row of the table there is nothing to note about the tag.
    simp only [Option.isNone_some, Bool.false_and, Bool.false_eq_true, if_false, pure_bind,
      lowerKnown, map_bind]
    split <;> simp only [map_bind, map_pure]
  | none =>
    cases hcustom : el.tag.isCustom with
    | true => simp [lowerComponent, map_bind]
    | false =>
      simp only [Option.isNone_none, Bool.true_and, Bool.false_eq_true, if_false, if_true,
        lowerKnown, map_bind, bind_assoc, pure_bind, unknownTagMessage]
      split <;> simp only [map_bind, map_pure]

section Element

variable (overrides : Overrides) (el : Element)

/-- A component keeps its name, and its children stand in the slot `child`. -/
theorem lowerComponent_value :
    (lowerComponent overrides el).value =
      componentWidget el.tag.text
        (lowerComponentAttributes overrides el.tag.text el.attributes).value
        (lowerNodes overrides el.children).value := rfl

/-- A component is noted in front of what its attributes and its children note. -/
theorem lowerComponent_notes :
    (lowerComponent overrides el).notes =
      { components := [el.tag.text] }
        ++ ((lowerComponentAttributes overrides el.tag.text el.attributes).notes
          ++ (lowerNodes overrides el.children).notes) := by
  simp only [lowerComponent, Noted.notes_bind, Noted.notes_component, Noted.notes_pure,
    Notes.append_empty]

variable (found : ResolvedRow)

/-- The attributes of an element with a row, as its lowering reads them. -/
abbrev knownAttributes : Noted Additions :=
  lowerAttributes found.row el.tag.text found.target el.attributes {}

/-- An element that shows text only becomes a text. -/
theorem lowerKnown_value_text (h : found.row.roles.textLike = true) :
    (lowerKnown overrides found el).value =
      textWidget found.row el.tag.text found.target (knownAttributes el found).value
        (collectTexts overrides found.target el.children).value := by
  rw [lowerKnown, Noted.value_bind, if_pos h]
  rfl

/-- What is noted comes from its attributes and then from the text. -/
theorem lowerKnown_notes_text (h : found.row.roles.textLike = true) :
    (lowerKnown overrides found el).notes =
      (knownAttributes el found).notes
        ++ (collectTexts overrides found.target el.children).notes := by
  rw [lowerKnown, Noted.notes_bind, if_pos h, Noted.notes_bind, Noted.notes_pure,
    Notes.append_empty]

/-- Any other element with a row becomes a box. -/
theorem lowerKnown_value_box (h : found.row.roles.textLike = false) :
    (lowerKnown overrides found el).value =
      boxWidget found.row el.tag.text found.target (knownAttributes el found).value
        (lowerNodes overrides el.children).value
        (found.row.slot.dropped found.target (lowerNodes overrides el.children).value).value := by
  rw [lowerKnown, Noted.value_bind, if_neg (by simp [h])]
  rfl

/-- What is noted comes from its attributes, its children, and from their loss if they have no slot.
-/
theorem lowerKnown_notes_box (h : found.row.roles.textLike = false) :
    (lowerKnown overrides found el).notes =
      (knownAttributes el found).notes
        ++ ((lowerNodes overrides el.children).notes
          ++ (found.row.slot.dropped found.target
            (lowerNodes overrides el.children).value).notes) := by
  rw [lowerKnown, Noted.notes_bind, if_neg (by simp [h]), Noted.notes_bind, Noted.notes_bind,
    Noted.notes_pure, Notes.append_empty]

end Element

/-- An element without a row becomes the widget of a component. -/
theorem lowerElement_of_component {overrides : Overrides} {el : Element}
    (h : overrides.rowOf? el.tag = none) :
    lowerElement overrides el = lowerComponent overrides el := by
  rw [lowerElement, h]

/-- An element with a row is lowered by it, after its tag has been noted. -/
theorem lowerElement_of_row {overrides : Overrides} {el : Element} {found : ResolvedRow}
    (h : overrides.rowOf? el.tag = some found) :
    lowerElement overrides el = (do
      noteTag overrides el.tag.text
      lowerKnown overrides found el) := by
  rw [lowerElement, h]

/-! ### The lowering of a child -/

/-- A placeholder as the only widget of a child. -/
def lowerUnread (e : Node) : Noted (List Widget) := (fun w => [w]) <$> placeholderFor e

/-- **The lowering of a child**, by what kind of child it is. -/
theorem lowerNode_eq (overrides : Overrides) (n : Node) :
    lowerNode overrides n =
      match n.childForm with
      | .text shown => return shown.toList.map Widget.ofText
      | .element el => (fun w => [w]) <$> lowerElement overrides el
      | .fragment nodes => lowerNodes overrides nodes
      | .inner e => lowerNode overrides e
      | .spread e => lowerUnread e
      | .expression e => lowerUnread e := by
  obtain ⟨form, place, parts⟩ := n
  conv => lhs; unfold lowerNode
  -- The cases are those of `lowerNode`; where it only passes the child on, both sides agree.
  split
  all_goals first | rfl | skip
  · -- a text as it is written
    rw [Node.childForm]
    simp only [shownText?]
    split <;> rfl
  · -- an element
    next tag _ _ _ attributes _ _ _ nodes _ =>
    rw [Node.childForm]
    exact (lowerElement_eq overrides ⟨tag, attributes, nodes⟩).symm
  · -- braces around an expression, which may be a text
    next e hform =>
    rw [Node.childForm]
    · cases plainText? e with
      | none => rfl
      | some s =>
        simp only [shownLiteral?]
        split <;> rfl
    · exact hform
  · -- nothing that has a rule
    rw [Node.childForm]
    · rfl
    all_goals assumption

theorem lowerNode_inner {overrides : Overrides} {n e : Node} (h : n.childForm = .inner e) :
    lowerNode overrides n = lowerNode overrides e := by
  rw [lowerNode_eq, h]

/-- An element becomes one widget. -/
theorem lowerNode_element {overrides : Overrides} {n : Node} {el : Element}
    (h : n.element? = some el) :
    lowerNode overrides n = (fun w => [w]) <$> lowerElement overrides el := by
  rw [lowerNode_eq, childForm_of_element? h]

/-- **Children become widgets one after the other.** -/
theorem lowerNodes_value (overrides : Overrides) (ns : List Node) :
    (lowerNodes overrides ns).value = ns.flatMap fun n => (lowerNode overrides n).value := by
  induction ns with
  | nil => rfl
  | cons n ns ih =>
    rw [lowerNodes, List.flatMap_cons, ← ih]
    rfl

/-- What is noted for them is noted one after the other. -/
theorem lowerNodes_notes (overrides : Overrides) (ns : List Node) :
    (lowerNodes overrides ns).notes = .join (ns.map fun n => (lowerNode overrides n).notes) := by
  induction ns with
  | nil => rfl
  | cons n ns ih =>
    rw [lowerNodes, List.map_cons, Notes.join_cons, ← ih]
    simp only [Noted.notes_bind, Noted.notes_pure, Notes.append_empty]

end JsxWidgets
