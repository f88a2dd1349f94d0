import JsxWidgets.Proofs.Lowering.Shape

/-!
# Attributes that are kept

No attribute of an element is lost and none changes its place: the arguments of its widget stand for
its attributes one by one, in the order of the source. Class names are the exception. They go into a
remark of the widget and into the notes, and there is no widget in any tree that has an argument for
them.

`AttributesKept` puts everything together, for elements with a row and for components. That no
widget has an argument for class names goes by the shape of the tree: a widget comes from an
element, and its arguments are known, or it is one of a few kinds of leaves, or a column.
-/

namespace JsxWidgets

open Syntax

/-! ### Class names -/

/-- An argument that is not one for class names. -/
def Property.Classless (p : Property) : Prop := p.isComment = false → isClassAttribute p.key = false

theorem Property.classless_comment (key text : String) : (comment key text).Classless := by
  intro h
  cases h

theorem Property.classless_named {key : String} {value : Value}
    (h : isClassAttribute key = false) : (named key value).Classless := fun _ => h

/-- A widget with such arguments only has no argument for class names. -/
theorem hasProperty_of_classless {w : Widget} (h : ∀ p ∈ w.properties, p.Classless) {key : String}
    (hkey : isClassAttribute key = true) : w.hasProperty key = false := by
  rw [Widget.hasProperty, Widget.hasKey, List.any_eq_false]
  intro p hp hreal
  rw [Bool.and_eq_true, Bool.not_eq_true', decide_eq_true_iff] at hreal
  have hclass := h p hp hreal.1
  rw [hreal.2, hkey] at hclass
  cases hclass

theorem RuleProperty.classless {tag name : String} {p : Property} (h : RuleProperty tag name p) :
    p.Classless := by
  cases h with
  | remark key text => exact Property.classless_comment key text
  | argument key value hkey hnodes =>
    have hall : ∀ k ∈ ruleKeys, isClassAttribute k = false := by decide
    exact Property.classless_named (hall key hkey)
  | identity code hname htag => exact Property.classless_named (by decide)
  | hint code => exact Property.classless_named (by decide)

theorem Shows.classless {row : ElementRow} {tag : String} {before : List Property}
    {g : GivenAttribute} {p : Property} (h : Shows row tag before g p) : p.Classless := by
  cases h with
  | spread e => exact Property.classless_comment _ _
  | key value => exact Property.classless_named (by decide)
  | unruled name value hkey hrule => exact Property.classless_comment _ _
  | rule name value p hkey hrule => exact (RuleProperty.of_rule hrule).classless

/-- The only arguments with a name of the author's choice are those of a component, and class names
are none of them. -/
theorem componentProperty_classless {overrides : Overrides} {g : GivenAttribute}
    (h : g.isClass = false) : (componentProperty overrides g).Classless := by
  cases g with
  | spread e => exact Property.classless_comment _ _
  | named name value =>
    rw [componentProperty]
    split
    · exact Property.classless_named (by decide)
    · exact Property.classless_named h

theorem ElementRow.extras_classless {row : ElementRow} (hrow : row ∈ table ∨ row = .fallback)
    {key code : String} (h : (key, code) ∈ row.extras) : isClassAttribute key = false := by
  rcases hrow with hmem | rfl
  · have hall : ∀ r ∈ table, ∀ x ∈ r.extras, isClassAttribute x.1 = false := by decide
    exact hall row hmem (key, code) h
  · cases h

theorem KnownArgument.classless {row : ElementRow} {tag : String} {p : Property}
    (h : KnownArgument row tag p) (hrow : row ∈ ElementRow.table ∨ row = .fallback) :
    p.Classless := by
  cases h with
  | payload pieces => exact Property.classless_named (by decide)
  | given before g p hshows => exact hshows.classless
  | extra key code hmem => exact Property.classless_named (ElementRow.extras_classless hrow hmem)
  | remark key text => exact Property.classless_comment key text
  | tap => exact Property.classless_named (by decide)

/-- The widget of an element has no argument for class names. -/
theorem lowerElement_classless {overrides : Overrides} {el : Element} {p : Property}
    (hp : p ∈ (lowerElement overrides el).value.properties) : p.Classless := by
  cases hrow : overrides.rowOf? el.tag with
  | none =>
    rw [lowerElement_of_component hrow, lowerComponent_arguments.1] at hp
    obtain ⟨g, hg, rfl⟩ := List.mem_map.mp hp
    exact componentProperty_classless (by simpa using (List.mem_filter.mp hg).2)
  | some found =>
    rw [lowerElement_of_row hrow, Noted.value_bind] at hp
    exact (KnownArgument.of_mem hrow hp).classless (Overrides.rowOf?_mem hrow)

theorem Widget.Loose.classless {w : Widget} (h : w.Loose) : ∀ p ∈ w.properties, p.Classless := by
  intro p hp
  cases h with
  | nothing => cases hp
  | placeholder comment => cases hp
  | text s =>
    obtain rfl := List.mem_singleton.mp hp
    exact Property.classless_named (by decide)
  | hint code =>
    obtain rfl := List.mem_singleton.mp hp
    exact Property.classless_named (by decide)

/-- No widget of a lowered tree has an argument for class names. -/
theorem lowerMarkup_classless (overrides : Overrides) (markup : Node) :
    ∀ w ∈ (lowerMarkup overrides markup).value.nodes, ∀ p ∈ w.properties, p.Classless := by
  intro w hw p hp
  have hfits := lowerMarkup_fits overrides markup w hw
  cases hsource : w.source with
  | none =>
    rcases hfits.loose hsource with hloose | ⟨ws, -, rfl, -⟩
    · exact hloose.classless p hp
    · cases hp
  | some tag =>
    -- A widget with a source is what an element below the markup became.
    obtain ⟨n, -, el, hel, -, hmade, -⟩ := hfits.sourced tag hsource
    rw [lowerNode_element hel] at hmade
    obtain rfl : (lowerElement overrides el).value = w := List.singleton_inj.mp hmade
    exact lowerElement_classless hp

/-- The class names of an element's own attributes are noted. -/
theorem lowerElement_classNames (overrides : Overrides) (el : Element) {g : GivenAttribute}
    (hg : g ∈ el.given) : g.classTokens ⊆ (lowerElement overrides el).notes.classNames := by
  intro token htoken
  cases hrow : overrides.rowOf? el.tag with
  | none =>
    -- A component notes what its attributes note, one by one.
    have hown : token ∈ (componentNotes overrides el.tag.text g).classNames := by
      cases g with
      | spread e => cases htoken
      | named name value =>
        rw [GivenAttribute.classTokens] at htoken
        simp only [componentNotes]
        split at htoken
        · next hclass =>
          rw [if_pos hclass]
          exact htoken
        · cases htoken
    rw [lowerElement_of_component hrow, lowerComponent_notes, lowerComponentAttributes_notes]
    refine List.mem_append_right _ (List.mem_append_left _ ?_)
    rw [Notes.classNames_join, List.mem_flatMap]
    exact ⟨_, List.mem_map_of_mem hg, hown⟩
  | some found =>
    have hown : token ∈ (knownAttributes el found).notes.classNames := by
      rw [knownAttributes, lowerAttributes_notes]
      exact List.mem_flatMap.mpr ⟨g, hg, htoken⟩
    rw [lowerElement_of_row hrow, Noted.notes_bind, Notes.classNames_append]
    -- Behind what is noted for the tag, the attributes come first.
    refine List.mem_append_right _ ?_
    cases htext : found.row.roles.textLike with
    | true =>
      rw [lowerKnown_notes_text overrides el found htext]
      exact List.mem_append_left _ hown
    | false =>
      rw [lowerKnown_notes_box overrides el found htext]
      exact List.mem_append_left _ hown

/-- The class names of elements that are merged into a text are noted. -/
theorem lowerElement_mergedClassNames {overrides : Overrides} {el : Element} {found : ResolvedRow}
    (hrow : overrides.rowOf? el.tag = some found) {lost : Intrusion}
    (hlost : lost ∈ el.lost overrides found) :
    lost.classTokens ⊆ (lowerElement overrides el).notes.classNames := by
  intro token htoken
  unfold Element.lost at hlost
  split at hlost
  · next htext =>
    rw [lowerElement_of_row hrow, Noted.notes_bind, Notes.classNames_append,
      lowerKnown_notes_text overrides el found htext,
      (collectTexts_tells overrides found.target el.children).2]
    refine List.mem_append_right _ (List.mem_append_right _ ?_)
    exact List.mem_flatMap.mpr ⟨lost, hlost, htoken⟩
  · cases hlost

/-! ### What becomes of the attributes -/

/-- **What becomes of the attributes of an element** in its widget `w`, and in the class names noted
when it is made. -/
structure AttributesKept (overrides : Overrides) (el : Element) (w : Widget)
    (classNames : List String) : Prop where
  /-- On a component, every attribute is an argument under its name, or a comment if it is a
  spread. -/
  component : overrides.rowOf? el.tag = none →
    w.properties = el.shownAttributes.map (componentProperty overrides) ∧
      w.comments = el.given.filterMap (·.classRemark? "")
  /-- On an element with a row, every attribute is shown as an argument, in a list that holds
  nothing but these and what the row and merged elements add. -/
  known : ∀ found, overrides.rowOf? el.tag = some found →
    w.comments = el.remarks overrides found ∧
      ∃ shown, ShowsInOrder found.row el.tag.text [] el.shownAttributes shown ∧
        w.properties = el.arguments overrides found shown
  /-- An attribute without a rule is a comment under its name. -/
  unruled : ∀ found, overrides.rowOf? el.tag = some found →
    ∀ name value, .named name value ∈ el.shownAttributes → name ≠ "key" →
      (∀ keyed, attributeRule? found.row el.tag.text keyed name value = none) →
      unhandledComment name value ∈ w.properties
  /-- Class names are noted. -/
  own : ∀ g ∈ el.given, g.classTokens ⊆ classNames
  /-- The class names of merged elements are noted. -/
  merged : ∀ found, overrides.rowOf? el.tag = some found →
    ∀ lost ∈ el.lost overrides found, lost.classTokens ⊆ classNames
  /-- No widget below has an argument for class names. -/
  classless : ∀ x ∈ w.nodes, x.hasProperty "className" = false ∧ x.hasProperty "class" = false

/-- **No attribute is lost or changes its place.** -/
theorem lower_keepsAttributes (b : Builder) {n : Node} {el : Element} (h : n.element? = some el) :
    AttributesKept b.overrides el (b.lower n).1 (b.lower n).2.notes.classNames := by
  have hvalue : (b.lower n).1 = (lowerElement b.overrides el).value := by
    rw [Builder.lower_fst, lowerMarkup, lowerNode_element h]
    rfl
  have hnotes : (lowerElement b.overrides el).notes.classNames
      ⊆ (b.lower n).2.notes.classNames := by
    rw [Builder.lower_notes, lowerMarkup, lowerNode_element h, Noted.notes_map, Noted.notes_map]
    exact List.subset_append_right _ _
  -- one goal for each field, in order
  refine ⟨fun hrow => ?_, fun found hrow => ?_, fun found hrow name value hname hkey hrule => ?_,
    fun g hg => ?_, fun found hrow lost hlost => ?_, fun x hx => ?_⟩
  · rw [hvalue, lowerElement_of_component hrow]
    exact lowerComponent_arguments
  · obtain ⟨shown, hshown, hproperties, hcomments⟩ := lowerKnown_arguments hrow
    rw [hvalue, lowerElement_of_row hrow]
    exact ⟨hcomments, shown, hshown, hproperties⟩
  · obtain ⟨shown, hshown, hproperties, -⟩ := lowerKnown_arguments hrow
    obtain ⟨before, p, hp, hshows⟩ := hshown.exists_mem hname
    obtain rfl := hshows.eq_unhandled hkey hrule
    rw [hvalue, lowerElement_of_row hrow, Noted.value_bind, hproperties, Element.arguments,
      Element.argumentsAhead]
    simp only [List.mem_append]
    exact Or.inl (Or.inl (Or.inl (Or.inr hp)))
  · exact List.Subset.trans (lowerElement_classNames b.overrides el hg) hnotes
  · exact List.Subset.trans (lowerElement_mergedClassNames hrow hlost) hnotes
  · have hclassless := lowerMarkup_classless b.overrides n x hx
    exact ⟨hasProperty_of_classless hclassless (by decide),
      hasProperty_of_classless hclassless (by decide)⟩

/-- A link with a target and a class: the class is no argument, and a handler stands at the end. -/
theorem lower_keepsAttributes_link :
    AttributesKept []
      ⟨.simple "a", [⟨.attr (.simple "href"), 0, [.leaf (.quoted "/") 0]⟩,
        ⟨.attr (.simple "class"), 0, [.leaf (.quoted "nav") 0]⟩], []⟩
      (Builder.lower {} (.ofElement ⟨.simple "a",
        [⟨.attr (.simple "href"), 0, [.leaf (.quoted "/") 0]⟩,
          ⟨.attr (.simple "class"), 0, [.leaf (.quoted "nav") 0]⟩], []⟩)).1
      (Builder.lower {} (.ofElement ⟨.simple "a",
        [⟨.attr (.simple "href"), 0, [.leaf (.quoted "/") 0]⟩,
          ⟨.attr (.simple "class"), 0, [.leaf (.quoted "nav") 0]⟩], []⟩)).2.notes.classNames :=
  lower_keepsAttributes {} (Node.element?_ofElement _)

end JsxWidgets
