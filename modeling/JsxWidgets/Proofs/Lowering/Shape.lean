import JsxWidgets.Proofs.Lowering.Arguments

/-!
# The shape of lowered trees

Every widget of a lowered tree has children that fit the slot of the element it was made from: none
where the element has no slot, at most one under the name of a single slot, and a collection in
order under the name of a slot for many. Where several widgets were made for a single slot, a
`Column` that comes from no element holds them, in order. There is one more place for such a column:
the roots of a fragment, be it the whole markup or the value of an attribute.

* `Slot.Holds` says what stands in a slot, for each number of widgets made for it;
* `Fits` is the condition on one widget of a tree: its provenance, its children, the places where a
  column may stand, and that a component has been noted;
* `lowerNode_grown` proves it for all widgets that a child becomes, by induction on the nodes below
  the child; what carries the induction is that such a widget is never itself a column of roots.
-/

namespace JsxWidgets

open Syntax

/-! ### Slots -/

/-- The slot of an element: that of its row, and `child` for a component and for an element that the
table does not know. -/
def Overrides.slotOf (overrides : Overrides) (tag : String) : Slot :=
  match overrides.resolve? tag with
  | some found => found.row.slot
  | none => .single "child"

/-- The slot for a tag with a row is that of the row. -/
theorem Overrides.slotOf_of_row {overrides : Overrides} {tag : TagName} {found : ResolvedRow}
    (h : overrides.rowOf? tag = some found) : overrides.slotOf tag.text = found.row.slot := by
  rcases rowOf?_eq_some h with hrow | ⟨hrow, -, rfl⟩
  · rw [slotOf, hrow]
  · rw [slotOf, hrow]
    rfl

/-- That of a component holds a single child. -/
theorem Overrides.slotOf_of_component {overrides : Overrides} {tag : TagName}
    (h : overrides.rowOf? tag = none) : overrides.slotOf tag.text = .single "child" := by
  unfold rowOf? at h
  split at h
  · cases h
  · next hrow => rw [slotOf, hrow]

/-- An element that shows text has no slot. -/
theorem ElementRow.slot_of_textLike {row : ElementRow} (hmem : row ∈ ElementRow.table)
    (htext : row.roles.textLike = true) : row.slot = .none := by
  have hall : ∀ r ∈ ElementRow.table, r.roles.textLike = true → r.slot = .none := by decide
  exact hall row hmem htext

/-- An element that shows text only has none. -/
theorem Overrides.slotOf_of_textLike {overrides : Overrides} {tag : TagName} {found : ResolvedRow}
    (h : overrides.rowOf? tag = some found) (htext : found.row.roles.textLike = true) :
    overrides.slotOf tag.text = .none := by
  rw [slotOf_of_row h]
  rcases rowOf?_mem h with hmem | hfallback
  · exact ElementRow.slot_of_textLike hmem htext
  · rw [hfallback] at htext
    exact absurd htext (by decide)

/-- The widget for unknown elements is the name of a component, so no unknown element has it. -/
theorem TagName.text_ne_fallback {tag : TagName} (h : tag.isCustom = false) :
    tag.text ≠ ElementRow.fallback.target := by
  intro htext
  cases tag with
  | simple name =>
    obtain rfl : name = "Container" := htext
    exact absurd h (by decide)
  | member object property => cases h
  | namespaced space name =>
    -- There is a colon in the tag, and none in the name of the widget.
    have hcolon : ':' ∈ "Container".toList := by
      rw [← show space ++ ":" ++ name = "Container" from htext, String.toList_append,
        String.toList_append]
      exact List.mem_append_left _ (List.mem_append_right _ List.mem_cons_self)
    exact absurd hcolon (by decide)

/-- An element with a row is not passed through under its own name. -/
theorem Overrides.resolve?_of_passedThrough {overrides : Overrides} {tag : TagName}
    {found : ResolvedRow} (h : overrides.rowOf? tag = some found)
    (hsame : tag.text = found.target) : overrides.resolve? found.target ≠ none := by
  rcases rowOf?_eq_some h with hrow | ⟨-, hcustom, rfl⟩
  · rw [← hsame, hrow]
    exact Option.some_ne_none found
  · exact absurd hsame (TagName.text_ne_fallback hcustom)

/-- **What stands in a slot** for the widgets that were made for it. -/
inductive Slot.Holds : Slot → List Widget → Children → Prop
  /-- Without a slot there are no children, whatever was made. -/
  | slotless (ws : List Widget) : Holds .none ws .none
  /-- Nothing was made for a single slot. -/
  | nobody (name : String) : Holds (.single name) [] .none
  /-- One widget stands in a single slot itself. -/
  | one (name : String) (w : Widget) : Holds (.single name) [w] (.single name w)
  /-- Several widgets stand in a single slot inside a column, in order. -/
  | stacked (name : String) (ws : List Widget) : 2 ≤ ws.length →
    Holds (.single name) ws (.single name (.mk "Column" [] [] (.many "children" ws) Option.none))
  /-- Nothing was made for a slot for many. -/
  | empty (name : String) : Holds (.many name) [] .none
  /-- All widgets stand in a slot for many, in order. -/
  | collected (name : String) (ws : List Widget) : ws ≠ [] →
    Holds (.many name) ws (.many name ws)

/-- **What is placed in a slot is held by it as the slot says.** -/
theorem Slot.holds_place (slot : Slot) (ws : List Widget) : slot.Holds ws (slot.place ws) := by
  -- The cases are those in which a slot tells numbers of widgets apart.
  cases slot with
  | none => exact .slotless ws
  | single name =>
    match ws with
    | [] => exact .nobody name
    | [w] => exact .one name w
    | v :: w :: rest => exact .stacked name _ (Nat.le_add_left 2 rest.length)
  | many name =>
    match ws with
    | [] => exact .empty name
    | w :: rest => exact .collected name _ (List.cons_ne_nil w rest)

/-! ### The condition on a widget -/

/-- **A leaf that comes from no element**: nothing, a text, a placeholder, or the decoration of a
text input. -/
inductive Widget.Loose : Widget → Prop
  /-- Nothing. -/
  | nothing : Loose .empty
  /-- A text. -/
  | text (s : String) : Loose (.ofText s)
  /-- A placeholder. -/
  | placeholder (comment : String) : Loose (.placeholder comment)
  /-- The decoration of a text input. -/
  | hint (code : String) :
    Loose (.mk "InputDecoration" [.named "hintText" (.raw code)] [] .none none)

/-- A loose widget comes from no element. -/
theorem Widget.Loose.source {w : Widget} (h : w.Loose) : w.source = none := by
  cases h <;> rfl

/-- It has no children. -/
theorem Widget.Loose.children {w : Widget} (h : w.Loose) : w.children = .none := by
  cases h <;> rfl

/-- It is a tree of its own. -/
theorem Widget.Loose.nodes {w : Widget} (h : w.Loose) : w.nodes = [w] := by
  cases h with
  | nothing => exact nodes_empty
  | text s => exact nodes_ofText s
  | placeholder comment => exact nodes_placeholder comment
  | hint code =>
    simp [Widget.nodes, Property.nodesOf, Property.named, Value.nodes, Children.nodes]

/-- Where a widget with a source comes from: an element of the markup with that tag, whose lowering
it is and whose slot holds the widgets made of the children of that element. -/
def FromElement (overrides : Overrides) (pool : List Node) (tag : String) (w : Widget) : Prop :=
  ∃ n ∈ pool, ∃ el, n.element? = some el ∧ el.tag.text = tag ∧
    (lowerNode overrides n).value = [w] ∧
    (overrides.slotOf tag).Holds (lowerNodes overrides el.children).value w.children

/-- **Where a column that comes from no element may stand**: in a single slot, around the roots of
the whole markup, or around the roots of a fragment that a component gets as an argument. -/
inductive StackPlace (overrides : Overrides) (pool : List Node) (root w : Widget)
    (ws : List Widget) : Prop
  /-- In the slot of a widget that comes from an element with a single slot. -/
  | slot (parent : Widget) (tag name : String) : parent ∈ root.nodes → parent.source = some tag →
    overrides.slotOf tag = .single name → parent.children = .single name w →
    StackPlace overrides pool root w ws
  /-- Around the roots of a fragment that is the markup as a whole. -/
  | roots (place : Place) (ns : List Node) : w = root → ⟨.fragment, place, ns⟩ ∈ pool →
    ws = (lowerNodes overrides ns).value → StackPlace overrides pool root w ws
  /-- Around the roots of a fragment that is the value of an argument. -/
  | argument (parent : Widget) (key : String) (place : Place) (ns : List Node) :
    parent ∈ root.nodes → .named key (.widget w) ∈ parent.properties →
    ⟨.fragment, place, ns⟩ ∈ pool → ws = (lowerNodes overrides ns).value →
    StackPlace overrides pool root w ws

/-- **The condition on a widget `w` of the tree below `root`**, which is made of the nodes in `pool`
while `components` are noted. -/
structure Fits (overrides : Overrides) (pool : List Node) (components : List String)
    (root w : Widget) : Prop where
  /-- A widget with a source comes from an element with that tag and fits its slot. -/
  sourced : ∀ tag, w.source = some tag → FromElement overrides pool tag w
  /-- A widget without a source is a leaf of a certain kind, or is a column of several widgets in a
  place where such columns are made. -/
  loose : w.source = none → w.Loose ∨
    ∃ ws, 2 ≤ ws.length ∧ w = .mk "Column" [] [] (.many "children" ws) none ∧
      StackPlace overrides pool root w ws
  /-- A component is noted: a widget with the tag of its source, for which there is no row. -/
  noted : w.source = some w.tag → overrides.resolve? w.tag = none → w.tag ∈ components

section Fits

variable {overrides : Overrides} {pool pool' : List Node} {components components' : List String}
  {root root' w x : Widget}

/-- A loose widget fits anywhere. -/
theorem Fits.of_loose (hloose : x.Loose) : Fits overrides pool components root x where
  sourced _ h := by
    rw [hloose.source] at h
    cases h
  loose _ := Or.inl hloose
  noted h := by
    rw [hloose.source] at h
    cases h

/-- A column of several widgets fits where such columns are made. -/
theorem Fits.of_column {ws : List Widget} (hlen : 2 ≤ ws.length)
    (hplace : StackPlace overrides pool root (.column ws) ws) :
    Fits overrides pool components root (.column ws) where
  sourced _ h := nomatch h
  loose _ := Or.inr ⟨ws, hlen, rfl, hplace⟩
  noted h := nomatch h

/-- A widget that is not a column of roots fits a larger tree, made of more nodes, as well. -/
theorem Fits.lift (h : Fits overrides pool components root x) (hpool : pool ⊆ pool')
    (hcomponents : components ⊆ components') (hroot : root.nodes ⊆ root'.nodes)
    (hgrown : root.source.isSome ∨ root.children = .none) :
    Fits overrides pool' components' root' x where
  sourced tag hs := by
    obtain ⟨n, hn, from'⟩ := h.sourced tag hs
    exact ⟨n, hpool hn, from'⟩
  loose hs := by
    rcases h.loose hs with hleaf | ⟨ws, hlen, rfl, hplace⟩
    · exact Or.inl hleaf
    refine Or.inr ⟨ws, hlen, rfl, ?_⟩
    cases hplace with
    | slot parent tag name hparent hsource hslot hchildren =>
      exact .slot parent tag name (hroot hparent) hsource hslot hchildren
    | roots place ns hcolumn =>
      -- The column would be the root itself, which has a source or no children.
      subst hcolumn
      rcases hgrown with hsome | hnone
      · cases hsome
      · cases hnone
    | argument parent key place ns hparent hproperty hfragment hmade =>
      exact .argument parent key place ns (hroot hparent) hproperty (hpool hfragment) hmade
  noted hs hrow := hcomponents (h.noted hs hrow)

end Fits

/-! ### Widgets that a child becomes -/

/-- **A widget that a child becomes**: its whole tree fits, and it is no column of roots. -/
structure Grown (overrides : Overrides) (pool : List Node) (components : List String)
    (w : Widget) : Prop where
  /-- Every widget of the tree fits. -/
  fits : ∀ x ∈ w.nodes, Fits overrides pool components w x
  /-- The widget comes from an element, or it has no children. -/
  rooted : w.source.isSome ∨ w.children = .none

section Grown

variable {overrides : Overrides} {pool pool' : List Node} {components components' : List String}
  {root w : Widget} {ws : List Widget}

/-- A loose widget is a tree that has grown of any nodes. -/
theorem Grown.of_loose (h : w.Loose) : Grown overrides pool components w where
  fits x hx := by
    rw [h.nodes, List.mem_singleton] at hx
    subst hx
    exact .of_loose h
  rooted := Or.inr h.children

/-- A tree has grown of more nodes, and with more components noted, if it has of fewer. -/
theorem Grown.weaken (h : Grown overrides pool components w) (hpool : pool ⊆ pool')
    (hcomponents : components ⊆ components') : Grown overrides pool' components' w where
  fits x hx := (h.fits x hx).lift hpool hcomponents (List.Subset.refl _) h.rooted
  rooted := h.rooted

/-- The widgets of a grown tree fit wherever the tree hangs. -/
theorem Grown.fits_in (h : Grown overrides pool components w) (hroot : w.nodes ⊆ root.nodes) :
    ∀ x ∈ w.nodes, Fits overrides pool components root x := fun x hx =>
  (h.fits x hx).lift (List.Subset.refl _) (List.Subset.refl _) hroot h.rooted

/-- Side by side, grown trees fit where a column of them may stand. -/
theorem column_fits (hgrown : ∀ w ∈ ws, Grown overrides pool components w)
    (hroot : (Widget.column ws).nodes ⊆ root.nodes) (hlen : 2 ≤ ws.length)
    (hplace : StackPlace overrides pool root (.column ws) ws) :
    ∀ x ∈ (Widget.column ws).nodes, Fits overrides pool components root x := by
  intro x hx
  rw [Widget.nodes_column] at hx hroot
  rcases List.mem_cons.mp hx with rfl | hbelow
  · exact .of_column hlen hplace
  · -- Below the column, everything belongs to one of the trees.
    obtain ⟨w, hw, hxw⟩ := Widget.mem_nodesOf.mp hbelow
    refine (hgrown w hw).fits_in (fun y hy => hroot (List.mem_cons_of_mem _ ?_)) x hxw
    exact Widget.mem_nodesOf.mpr ⟨w, hw, hy⟩

/-- Two or more widgets side by side are put into a column. -/
theorem siblings_eq_column (hlen : 2 ≤ ws.length) : siblings ws = .column ws := by
  match ws, hlen with
  | _ :: _ :: _, _ => rfl

/-- Widgets side by side fit if each of them does and the column may stand there. -/
theorem siblings_fits (hgrown : ∀ w ∈ ws, Grown overrides pool components w)
    (hroot : (siblings ws).nodes ⊆ root.nodes)
    (hplace : 2 ≤ ws.length → StackPlace overrides pool root (.column ws) ws) :
    ∀ x ∈ (siblings ws).nodes, Fits overrides pool components root x := by
  match ws with
  | [] =>
    intro x hx
    rw [siblings, Widget.nodes_empty, List.mem_singleton] at hx
    subst hx
    exact .of_loose .nothing
  | [w] => exact (hgrown w List.mem_cons_self).fits_in hroot
  | v :: w :: rest =>
    have hlen : 2 ≤ (v :: w :: rest).length := Nat.le_add_left 2 rest.length
    exact column_fits hgrown hroot hlen (hplace hlen)

/-- Grown trees fit in the slot of a widget that comes from an element with that slot. -/
theorem slot_fits {slot : Slot} {tag : String}
    (hgrown : ∀ v ∈ ws, Grown overrides pool components v) (hholds : slot.Holds ws w.children)
    (hsource : w.source = some tag) (hslot : overrides.slotOf tag = slot) :
    ∀ x ∈ w.children.nodes, Fits overrides pool components w x := by
  have hroot : w.children.nodes ⊆ w.nodes := fun x hx =>
    Widget.mem_nodes_iff.mpr (Or.inr (Or.inr hx))
  -- The children are forgotten but for what the slot says about them.
  generalize hchildren : w.children = children at hholds hroot
  cases hholds with
  | slotless ws =>
    intro x hx
    rw [Children.nodes] at hx
    cases hx
  | nobody name | empty name =>
    intro x hx
    rw [Children.nodes] at hx
    cases hx
  | one name v =>
    rw [Children.nodes] at hroot ⊢
    exact (hgrown v List.mem_cons_self).fits_in hroot
  | stacked name ws hlen =>
    rw [Children.nodes] at hroot ⊢
    refine column_fits hgrown hroot hlen ?_
    exact .slot w tag name w.self_mem_nodes hsource hslot hchildren
  | collected name ws hne =>
    rw [Children.nodes] at hroot ⊢
    intro x hx
    obtain ⟨v, hv, hxv⟩ := Widget.mem_nodesOf.mp hx
    refine (hgrown v hv).fits_in (fun y hy => hroot ?_) x hxv
    exact Widget.mem_nodesOf.mpr ⟨v, hv, hy⟩

end Grown

/-- More than one widget comes from a fragment only. -/
theorem fragment_of_two_le {overrides : Overrides} {n : Node}
    (h : 2 ≤ (lowerNode overrides n).value.length) :
    ∃ place ns, ⟨.fragment, place, ns⟩ ∈ n.nodes ∧
      (lowerNode overrides n).value = (lowerNodes overrides ns).value := by
  -- The fragment may stand inside braces and parentheses, which the induction looks through.
  induction n using Node.induction_below with
  | step n ih =>
    rw [lowerNode_eq] at h ⊢
    cases hform : n.childForm with
    | text shown =>
      rw [hform] at h
      cases shown with
      | none => exact absurd h (Nat.not_succ_le_zero 1)
      | some s => exact absurd h (Nat.not_succ_le_self 1)
    | element el =>
      rw [hform] at h
      exact absurd h (Nat.not_succ_le_self 1)
    | spread e =>
      rw [hform] at h
      exact absurd h (Nat.not_succ_le_self 1)
    | expression e =>
      rw [hform] at h
      exact absurd h (Nat.not_succ_le_self 1)
    | fragment ns =>
      obtain ⟨place, rfl⟩ := fragment_of_childForm hform
      exact ⟨place, ns, Node.self_mem_nodes _, rfl⟩
    | inner e =>
      rw [hform] at h
      obtain ⟨place, ns, hmem, hvalue⟩ := ih e (inner_below hform) h
      exact ⟨place, ns, Node.nodes_subset_of_mem_nodesOf (inner_below hform) hmem, hvalue⟩

/-! ### Arguments -/

/-- An argument whose widgets are leaves that come from no element. -/
def Property.HoldsLeaves (p : Property) : Prop := ∀ x ∈ p.value.nodes, x.Loose

/-- An argument without widgets in it holds no more than leaves. -/
theorem Property.holdsLeaves_of_nil {p : Property} (h : p.value.nodes = []) : p.HoldsLeaves := by
  intro x hx
  rw [h] at hx
  cases hx

/-- A comment in the place of an argument holds none. -/
theorem Property.holdsLeaves_comment (key text : String) : (comment key text).HoldsLeaves :=
  holdsLeaves_of_nil (by rw [comment, value, Value.nodes])

/-- Nor does one that is code. -/
theorem Property.holdsLeaves_code (key code : String) : (named key (.raw code)).HoldsLeaves :=
  holdsLeaves_of_nil (by rw [named, value, Value.nodes])

/-- An argument that a rule makes holds leaves only. -/
theorem RuleProperty.holdsLeaves {tag name : String} {p : Property} (h : RuleProperty tag name p) :
    p.HoldsLeaves := by
  cases h with
  | remark key text => exact Property.holdsLeaves_comment key text
  | argument key value hkey hnodes => exact Property.holdsLeaves_of_nil hnodes
  | identity code htag => exact Property.holdsLeaves_code "key" code
  | hint code =>
    intro x hx
    rw [Property.named, Property.value, Value.nodes, (Widget.Loose.hint code).nodes,
      List.mem_singleton] at hx
    subst hx
    exact .hint code

/-- Nor does a text. -/
theorem payload_holdsLeaves (pieces : List TextPiece) :
    (Property.positional (TextPiece.payload pieces)).HoldsLeaves := by
  refine Property.holdsLeaves_of_nil ?_
  rw [Property.positional, Property.value, TextPiece.payload]
  split <;> rw [Value.nodes]

/-- An argument that shows an attribute of an element with a row holds leaves only. -/
theorem Shows.holdsLeaves {row : ElementRow} {tag : String} {before : List Property}
    {g : GivenAttribute} {p : Property} (h : Shows row tag before g p) : p.HoldsLeaves := by
  cases h with
  | spread e => exact Property.holdsLeaves_comment _ _
  | key value => exact Property.holdsLeaves_code _ _
  | unruled name value hkey hrule => exact Property.holdsLeaves_comment _ _
  | rule name value p hkey hrule => exact (RuleProperty.of_rule hrule).holdsLeaves

/-- The arguments of an element with a row hold no widgets but hints. -/
theorem KnownArgument.holdsLeaves {row : ElementRow} {tag : String} {p : Property}
    (h : KnownArgument row tag p) : p.HoldsLeaves := by
  cases h with
  | payload pieces => exact payload_holdsLeaves pieces
  | given before g p hshows => exact hshows.holdsLeaves
  | extra key code hmem => exact Property.holdsLeaves_code key code
  | remark key text => exact Property.holdsLeaves_comment key text
  | tap => exact Property.holdsLeaves_code _ _

/-- **An argument whose widgets fit**: they are leaves, or they are what markup became. -/
inductive ArgumentFits (overrides : Overrides) (pool : List Node) (components : List String) :
    Property → Prop
  /-- All widgets in it are leaves. -/
  | leaves (p : Property) : p.HoldsLeaves → ArgumentFits overrides pool components p
  /-- It holds the widgets of markup. -/
  | markup (key : String) (m : Node) : m.nodes ⊆ pool →
    (∀ v ∈ (lowerNode overrides m).value, Grown overrides pool components v) →
    ArgumentFits overrides pool components
      (.named key (.widget (siblings (lowerNode overrides m).value)))

section Element

variable {overrides : Overrides} {pool : List Node} {components : List String} {w : Widget}

/-- The widgets in an argument fit in the tree around if the argument is as it should be. -/
theorem ArgumentFits.fits {p : Property} (h : ArgumentFits overrides pool components p)
    (hp : p ∈ w.properties) : ∀ x ∈ p.value.nodes, Fits overrides pool components w x := by
  have hroot : p.value.nodes ⊆ w.nodes := fun x hx =>
    Widget.mem_nodes_iff.mpr (Or.inr (Or.inl ⟨p, hp, hx⟩))
  cases h with
  | leaves p hleaves =>
    exact fun x hx => .of_loose (hleaves x hx)
  | markup key m hpool hgrown =>
    rw [Property.named, Property.value, Value.nodes] at hroot ⊢
    refine siblings_fits hgrown hroot fun hlen => ?_
    obtain ⟨place, ns, hfragment, hvalue⟩ := fragment_of_two_le hlen
    rw [siblings_eq_column hlen] at hp
    exact .argument w key place ns w.self_mem_nodes hp (hpool hfragment) hvalue

/-- The widget of an element is grown if its children are and its arguments fit. -/
theorem Grown.of_element {n : Node} {el : Element} (hel : n.element? = some el) (hn : n ∈ pool)
    (hmade : (lowerNode overrides n).value = [w]) (hsource : w.source = some el.tag.text)
    (hholds : (overrides.slotOf el.tag.text).Holds (lowerNodes overrides el.children).value
      w.children)
    (hchildren : w.children ≠ .none → ∀ v ∈ (lowerNodes overrides el.children).value,
      Grown overrides pool components v)
    (harguments : ∀ p ∈ w.properties, ArgumentFits overrides pool components p)
    (hnoted : w.source = some w.tag → overrides.resolve? w.tag = none → w.tag ∈ components) :
    Grown overrides pool components w where
  fits x hx := by
    -- The widget itself, what is in its arguments, and what is among its children.
    rcases Widget.mem_nodes_iff.mp hx with rfl | ⟨p, hp, hxp⟩ | hxc
    · refine ⟨fun tag htag => ?_, fun hnone => ?_, hnoted⟩
      · obtain rfl : el.tag.text = tag := Option.some.inj (hsource.symm.trans htag)
        exact ⟨n, hn, el, hel, rfl, hmade, hholds⟩
      · rw [hsource] at hnone
        cases hnone
    · exact (harguments p hp).fits hp x hxp
    · -- Without a slot the children are lost, and nothing needs to be known of them.
      have hsome : w.children ≠ .none := by
        intro hnone
        rw [hnone, Children.nodes] at hxc
        cases hxc
      exact slot_fits (hchildren hsome) hholds hsource rfl x hxc
  rooted := Or.inl (by rw [hsource]; rfl)

end Element

/-! ### Lowered trees -/

section Lowered

variable {overrides : Overrides} {n : Node} {el : Element}

/-- What children become is grown in the nodes of their element if it is in their own. -/
theorem lowerNodes_grown {ns pool : List Node} {components : List String}
    (hpool : ∀ m ∈ ns, m.nodes ⊆ pool)
    (hcomponents : (lowerNodes overrides ns).notes.components ⊆ components)
    (hgrown : ∀ m ∈ ns, ∀ v ∈ (lowerNode overrides m).value,
      Grown overrides m.nodes (lowerNode overrides m).notes.components v) :
    ∀ v ∈ (lowerNodes overrides ns).value, Grown overrides pool components v := by
  intro v hv
  rw [lowerNodes_value] at hv
  obtain ⟨m, hm, hvm⟩ := List.mem_flatMap.mp hv
  refine (hgrown m hm v hvm).weaken (hpool m hm) (fun c hc => hcomponents ?_)
  rw [lowerNodes_notes, Notes.components_join, List.mem_flatMap]
  exact ⟨_, List.mem_map_of_mem hm, hc⟩

/-- The widgets of children have grown below an element. -/
theorem children_grown {components : List String} (hel : n.element? = some el)
    (hcomponents : (lowerNodes overrides el.children).notes.components ⊆ components)
    (hgrown : ∀ m ∈ Node.nodesOf n.parts, ∀ v ∈ (lowerNode overrides m).value,
      Grown overrides m.nodes (lowerNode overrides m).notes.components v) :
    ∀ v ∈ (lowerNodes overrides el.children).value, Grown overrides n.nodes components v := by
  have hbelow := Node.children_below hel
  exact lowerNodes_grown (fun m hm => Node.nodes_subset_of_mem_nodesOf (hbelow m hm)) hcomponents
    fun m hm => hgrown m (hbelow m hm)

/-- The argument that an attribute of a component becomes fits. -/
theorem componentProperty_fits {pool : List Node} {components : List String} {attr : Node}
    {g : GivenAttribute} {target : String} (hattr : GivenAttribute.ofNode? attr = some g)
    (hclass : g.isClass = false) (hpool : attr.nodes ⊆ pool)
    (hcomponents : (componentNotes overrides target g).components ⊆ components)
    (hgrown : ∀ m ∈ Node.nodesOf attr.parts, ∀ v ∈ (lowerNode overrides m).value,
      Grown overrides m.nodes (lowerNode overrides m).notes.components v) :
    ArgumentFits overrides pool components (componentProperty overrides g) := by
  cases g with
  | spread e => exact .leaves _ (Property.holdsLeaves_comment _ _)
  | named name value =>
    have hname : isClassAttribute name = false := hclass
    simp only [componentNotes, hname, Bool.false_eq_true, if_false] at hcomponents
    simp only [componentProperty]
    split
    · exact .leaves _ (Property.holdsLeaves_code _ _)
    · next hkey =>
      rw [if_neg hkey] at hcomponents
      cases value with
      | standsAlone | text s | expression e =>
        refine .leaves _ (Property.holdsLeaves_of_nil ?_)
        simp only [Property.named, Property.value, componentValue, plainArgument, Value.nodes]
      | markup m =>
        -- Markup in an attribute is lowered like a child, below this element.
        have hbelow := attributeMarkup_below hattr
        have hsub : m.nodes ⊆ pool := fun x hx =>
          hpool (Node.nodes_subset_of_mem_nodesOf hbelow hx)
        exact .markup name m hsub fun v hv => (hgrown m hbelow v hv).weaken hsub hcomponents

/-- **The widget of a component has grown**, with that of every child and every attribute. -/
theorem lowerComponent_grown (hel : n.element? = some el) (hrow : overrides.rowOf? el.tag = none)
    (hgrown : ∀ m ∈ Node.nodesOf n.parts, ∀ v ∈ (lowerNode overrides m).value,
      Grown overrides m.nodes (lowerNode overrides m).notes.components v) :
    Grown overrides n.nodes (lowerComponent overrides el).notes.components
      (lowerComponent overrides el).value := by
  have hmade : (lowerNode overrides n).value = [(lowerComponent overrides el).value] := by
    rw [lowerNode_element hel, lowerElement_of_component hrow]
    rfl
  refine .of_element hel n.self_mem_nodes hmade rfl ?_ ?_ ?_ ?_
  · rw [Overrides.slotOf_of_component hrow]
    exact Slot.holds_place _ _
  · intro _
    refine children_grown hel (fun c hc => ?_) hgrown
    rw [lowerComponent_notes]
    exact List.mem_append_right _ (List.mem_append_right _ hc)
  · -- each argument stands for an attribute
    intro p hp
    rw [lowerComponent_value, componentWidget, Widget.properties,
      lowerComponentAttributes_value] at hp
    obtain ⟨g, hg, rfl⟩ := List.mem_map.mp hp
    obtain ⟨hg, hclass⟩ := List.mem_filter.mp hg
    obtain ⟨attr, hmem, hattr⟩ := List.mem_filterMap.mp hg
    have hbelow := Node.attributes_below hel attr hmem
    have hnotes : (componentNotes overrides el.tag.text g).components
        ⊆ (lowerComponent overrides el).notes.components := by
      intro c hc
      rw [lowerComponent_notes, lowerComponentAttributes_notes]
      refine List.mem_append_right _ (List.mem_append_left _ ?_)
      rw [Notes.components_join, List.mem_flatMap]
      exact ⟨_, List.mem_map_of_mem hg, hc⟩
    exact componentProperty_fits hattr (by simpa using hclass)
      (Node.nodes_subset_of_mem_nodesOf hbelow) hnotes
      (fun m hm => hgrown m (Node.mem_nodesOf_trans hbelow hm))
  · intro _ _
    rw [lowerComponent_notes]
    exact List.mem_cons_self

/-- The widget of an element with a row comes from the tag of the element. -/
theorem lowerKnown_source (found : ResolvedRow) :
    (lowerKnown overrides found el).value.source = some el.tag.text := by
  cases htext : found.row.roles.textLike with
  | true => rw [lowerKnown_value_text overrides el found htext, textWidget, Widget.source]
  | false => rw [lowerKnown_value_box overrides el found htext, boxWidget, Widget.source]

/-- Its own tag is the target of the row. -/
theorem lowerKnown_tag (found : ResolvedRow) :
    (lowerKnown overrides found el).value.tag = found.target := by
  cases htext : found.row.roles.textLike with
  | true => rw [lowerKnown_value_text overrides el found htext, textWidget, Widget.tag]
  | false => rw [lowerKnown_value_box overrides el found htext, boxWidget, Widget.tag]

/-- It holds the widgets of the children as its slot says. -/
theorem lowerKnown_holds {found : ResolvedRow} (hrow : overrides.rowOf? el.tag = some found) :
    (overrides.slotOf el.tag.text).Holds (lowerNodes overrides el.children).value
      (lowerKnown overrides found el).value.children := by
  cases htext : found.row.roles.textLike with
  | true =>
    rw [lowerKnown_value_text overrides el found htext, textWidget, Widget.children,
      Overrides.slotOf_of_textLike hrow htext]
    exact .slotless _
  | false =>
    rw [lowerKnown_value_box overrides el found htext, boxWidget, Widget.children,
      Overrides.slotOf_of_row hrow]
    exact Slot.holds_place _ _

/-- **The widget of an element with a row has grown**, with those of its children. -/
theorem lowerKnown_grown {found : ResolvedRow} (hel : n.element? = some el)
    (hrow : overrides.rowOf? el.tag = some found)
    (hgrown : ∀ m ∈ Node.nodesOf n.parts, ∀ v ∈ (lowerNode overrides m).value,
      Grown overrides m.nodes (lowerNode overrides m).notes.components v) :
    Grown overrides n.nodes (lowerKnown overrides found el).notes.components
      (lowerKnown overrides found el).value := by
  have hmade : (lowerNode overrides n).value = [(lowerKnown overrides found el).value] := by
    rw [lowerNode_element hel, lowerElement_of_row hrow]
    rfl
  have hsource : (lowerKnown overrides found el).value.source = some el.tag.text :=
    lowerKnown_source found
  refine .of_element hel n.self_mem_nodes hmade hsource (lowerKnown_holds hrow) ?_ ?_ ?_
  · intro hsome
    cases htext : found.row.roles.textLike with
    | true =>
      rw [lowerKnown_value_text overrides el found htext] at hsome
      exact absurd rfl hsome
    | false =>
      refine children_grown hel (fun c hc => ?_) hgrown
      rw [lowerKnown_notes_box overrides el found htext]
      exact List.mem_append_right _ (List.mem_append_left _ hc)
  · exact fun p hp => .leaves p (KnownArgument.of_mem hrow hp).holdsLeaves
  -- the row was found, so the tag cannot have passed through
  · intro hpassed hrow'
    rw [hsource, lowerKnown_tag] at hpassed
    rw [lowerKnown_tag] at hrow'
    exact absurd hrow' (Overrides.resolve?_of_passedThrough hrow (Option.some.inj hpassed))

/-- **Every widget that a node becomes is grown**, from the nodes below it and with the components
noted on the way. -/
theorem lowerNode_grown (overrides : Overrides) (n : Node) :
    ∀ v ∈ (lowerNode overrides n).value,
      Grown overrides n.nodes (lowerNode overrides n).notes.components v := by
  -- The elements among the children and in the attributes lie two and more levels below.
  induction n using Node.induction_below with
  | step n ih =>
    cases hform : n.childForm with
    | text shown =>
      intro v hv
      rw [lowerNode_eq, hform] at hv
      obtain ⟨s, -, rfl⟩ := List.mem_map.mp hv
      exact .of_loose (.text s)
    | spread e =>
      intro v hv
      rw [lowerNode_eq, hform] at hv
      obtain rfl := List.mem_singleton.mp hv
      exact .of_loose (.placeholder _)
    | expression e =>
      intro v hv
      rw [lowerNode_eq, hform] at hv
      obtain rfl := List.mem_singleton.mp hv
      exact .of_loose (.placeholder _)
    | inner e =>
      -- What is inside is the same tree, made of fewer nodes.
      intro v hv
      have heq : lowerNode overrides n = lowerNode overrides e := by rw [lowerNode_eq, hform]
      rw [heq] at hv ⊢
      have hbelow := inner_below hform
      exact (ih e hbelow v hv).weaken (Node.nodes_subset_of_mem_nodesOf hbelow)
        (List.Subset.refl _)
    | fragment ns =>
      have heq : lowerNode overrides n = lowerNodes overrides ns := by rw [lowerNode_eq, hform]
      obtain ⟨place, rfl⟩ := fragment_of_childForm hform
      rw [heq]
      refine lowerNodes_grown (fun m hm => ?_) (List.Subset.refl _)
        (fun m hm => ih m (Node.mem_nodesOf_of_mem hm))
      exact Node.nodes_subset_of_mem_nodesOf (Node.mem_nodesOf_of_mem hm)
    | element el =>
      have hel := element?_of_childForm hform
      intro v hv
      rw [lowerNode_element hel] at hv ⊢
      obtain rfl := List.mem_singleton.mp hv
      rw [Noted.notes_map]
      cases hrow : overrides.rowOf? el.tag with
      | none =>
        rw [lowerElement_of_component hrow]
        exact lowerComponent_grown hel hrow ih
      | some found =>
        rw [lowerElement_of_row hrow]
        refine (lowerKnown_grown hel hrow ih).weaken (List.Subset.refl _) fun c hc => ?_
        exact List.mem_append_right _ hc

/-- **Every widget that markup becomes fits**: the markup as a whole may be a fragment, whose
widgets are put into a column at the root. -/
theorem lowerMarkup_fits (overrides : Overrides) (markup : Node) :
    ∀ w ∈ (lowerMarkup overrides markup).value.nodes,
      Fits overrides markup.nodes (lowerMarkup overrides markup).notes.components
        (lowerMarkup overrides markup).value w := by
  rw [lowerMarkup, Noted.notes_map]
  refine siblings_fits (lowerNode_grown overrides markup) (List.Subset.refl _) fun hlen => ?_
  obtain ⟨place, ns, hfragment, hvalue⟩ := fragment_of_two_le hlen
  exact .roots place ns (siblings_eq_column hlen).symm hfragment hvalue

/-- **The shape of lowered trees.** Whatever a builder has made before, every widget of the tree
that it makes of markup fits. -/
theorem fits_of_mem_lower (b : Builder) (markup : Node) :
    ∀ w ∈ (b.lower markup).1.nodes,
      Fits b.overrides markup.nodes (b.lower markup).2.notes.components (b.lower markup).1 w := by
  intro w hw
  -- What the builder had noted before stands in front, and does no harm.
  refine { lowerMarkup_fits b.overrides markup w hw with noted := fun hsource hrow => ?_ }
  rw [Builder.lower_notes]
  exact List.mem_append_right _ ((lowerMarkup_fits b.overrides markup w hw).noted hsource hrow)

/-- The column that stands in a box around two line breaks. -/
theorem fits_of_mem_lower_box :
    Fits []
      (Node.ofElement ⟨.simple "div", [], [.ofElement ⟨.simple "br", [], []⟩,
        .ofElement ⟨.simple "br", [], []⟩]⟩).nodes
      (Builder.lower {} (.ofElement ⟨.simple "div", [], [.ofElement ⟨.simple "br", [], []⟩,
        .ofElement ⟨.simple "br", [], []⟩]⟩)).2.notes.components
      (Builder.lower {} (.ofElement ⟨.simple "div", [], [.ofElement ⟨.simple "br", [], []⟩,
        .ofElement ⟨.simple "br", [], []⟩]⟩)).1
      (.mk "Column" [] [] (.many "children" [.mk "SizedBox.shrink" [] [] .none (some "br"),
        .mk "SizedBox.shrink" [] [] .none (some "br")]) none) :=
  fits_of_mem_lower {} _ _ (List.mem_cons_of_mem _ List.mem_cons_self)

end Lowered

end JsxWidgets
