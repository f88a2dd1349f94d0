import JsxWidgets.Proofs.Lowering.Attributes
import JsxWidgets.Proofs.Widget.Alike

/-!
# Overrides change tags only

A user may want other widgets for elements of the table. That changes the tags of their widgets, and
nothing else: two lists of overrides give trees that are alike but for their tags, the same class
names and components, and diagnostics of the same kinds (`lowerToWidgetTree_alike`).

Everything that the lowering asks of an element beside its tag, it asks of the row of the table, and
no list of overrides changes a row (`Overrides.rowOf?_cases`). The tag itself goes into messages and
into the comments that tell of something dropped. So the two runs are compared step by step
(`Noted.Alike`), by induction on what lies below a child.
-/

namespace JsxWidgets

open Syntax Expression

variable {o₁ o₂ : Overrides}

/-! ### Rows -/

/-- The row of an element and the tag that is wanted. -/
theorem Overrides.resolve?_eq (overrides : Overrides) (tag : String) :
    overrides.resolve? tag =
      (ElementRow.find? tag).map fun row => ⟨row, (overrides.wanted? tag).getD row.target⟩ := rfl

/-- Whether a tag has a row is up to the table alone. -/
theorem Overrides.isNone_resolve? (overrides : Overrides) (tag : String) :
    (overrides.resolve? tag).isNone = (ElementRow.find? tag).isNone := by
  rw [resolve?_eq, Option.isNone_map]

/-- Whether an element shows text only is said by its row. -/
theorem isTextLike_eq (overrides : Overrides) (tag : String) :
    isTextLike overrides tag = (ElementRow.find? tag).any (·.roles.textLike) := by
  rw [isTextLike, Overrides.resolve?_eq, Option.any_map]

/-- So what is noted for a tag is the same. -/
theorem noteTag_eq (o₁ o₂ : Overrides) (tag : String) : noteTag o₁ tag = noteTag o₂ tag := by
  rw [noteTag, noteTag, Overrides.isNone_resolve?, Overrides.isNone_resolve?]

/-- **An element has the same row under all overrides**, with the tag that they give; or it is a
component under all of them. -/
theorem Overrides.rowOf?_cases (o₁ o₂ : Overrides) (tag : TagName) :
    (o₁.rowOf? tag = none ∧ o₂.rowOf? tag = none ∧
      Retargets o₁ o₂ (some tag.text) tag.text tag.text) ∨
    ∃ row target₁ target₂, o₁.rowOf? tag = some ⟨row, target₁⟩ ∧
      o₂.rowOf? tag = some ⟨row, target₂⟩ ∧ Retargets o₁ o₂ (some tag.text) target₁ target₂ := by
  unfold rowOf?
  rw [resolve?_eq, resolve?_eq]
  -- The table alone decides which case it is.
  cases hrow : ElementRow.find? tag.text with
  | some row => exact .inr ⟨row, _, _, rfl, rfl, .row hrow⟩
  | none =>
    cases hcustom : tag.isCustom with
    | true => exact .inl ⟨rfl, rfl, .component hrow hcustom⟩
    | false => exact .inr ⟨.fallback, _, _, rfl, rfl, .unknown hrow hcustom⟩

/-! ### Additions -/

/-- Additions to two widgets with the given tags that are alike. -/
structure Additions.Alike (o₁ o₂ : Overrides) (tag₁ tag₂ : String) (a b : Additions) : Prop where
  /-- The arguments are alike. -/
  properties : List.Forall₂ (Property.Alike o₁ o₂) a.properties b.properties
  /-- The comments are alike. -/
  comments : List.Forall₂ (RemarkAlike tag₁ tag₂) a.comments b.comments

namespace Additions

variable {tag₁ tag₂ : String}

/-- Additions one behind the other are alike if each of them is. -/
theorem Alike.append {a b c d : Additions} (h : Alike o₁ o₂ tag₁ tag₂ a b)
    (h' : Alike o₁ o₂ tag₁ tag₂ c d) : Alike o₁ o₂ tag₁ tag₂ (a ++ c) (b ++ d) :=
  ⟨List.rel_append h.properties h'.properties, List.rel_append h.comments h'.comments⟩

/-- Additions whose arguments are like themselves. -/
theorem alike_self {a : Additions} (h : ∀ p ∈ a.properties, p.Alike o₁ o₂ p) :
    Alike o₁ o₂ tag₁ tag₂ a a :=
  ⟨List.forall₂_same.mpr h, RemarkAlike.refl a.comments⟩

/-- No additions are alike. -/
theorem alike_empty : Alike o₁ o₂ tag₁ tag₂ {} {} := ⟨.nil, .nil⟩

/-- Arguments that are alike add alike. -/
theorem alike_argument {p q : Property} (h : p.Alike o₁ o₂ q) :
    Alike o₁ o₂ tag₁ tag₂ (.argument p) (.argument q) := ⟨.cons h .nil, .nil⟩

/-- So do remarks. -/
theorem alike_remark {s t : String} (h : RemarkAlike tag₁ tag₂ s t) :
    Alike o₁ o₂ tag₁ tag₂ (.remark s) (.remark t) := ⟨.nil, .cons h .nil⟩

end Additions

/-! ### Attributes -/

section Attributes

variable (target₁ target₂ : String)

/-- The tag of the widget is quoted only in the message. -/
theorem lowerSpread_alike (e : Node) :
    (lowerSpread target₁ e).Alike Eq (lowerSpread target₂ e) := ⟨rfl, rfl, rfl, rfl⟩

/-- An attribute adds the same under both targets; the report names the target. -/
theorem lowerAttribute_alike (row : ElementRow) (tag : String) (hasKey : Bool) (attr : Node) :
    (lowerAttribute row tag target₁ hasKey attr).Alike Eq
      (lowerAttribute row tag target₂ hasKey attr) := by
  rw [lowerAttribute_eq, lowerAttribute_eq]
  cases GivenAttribute.ofNode? attr with
  | none => exact .refl rfl
  | some g =>
    cases g with
    | spread e => exact lowerSpread_alike target₁ target₂ e
    | named name value => exact .refl rfl

/-- So do all attributes of an element. -/
theorem lowerAttributes_alike (row : ElementRow) (tag : String) (attrs : List Node)
    (before : Additions) :
    (lowerAttributes row tag target₁ attrs before).Alike Eq
      (lowerAttributes row tag target₂ attrs before) := by
  induction attrs generalizing before with
  | nil => exact .refl rfl
  | cons attr rest ih =>
    refine (lowerAttribute_alike target₁ target₂ row tag _ attr).bind ?_
    -- What is in front of the next attribute is the same again, the key in it included.
    rintro added _ rfl
    exact ih (before ++ added)

/-- So do those of an element inside a text. -/
theorem lowerNestedAttributes_alike (tag : String) (attrs : List Node) :
    (lowerNestedAttributes tag target₁ attrs).Alike Eq
      (lowerNestedAttributes tag target₂ attrs) := by
  induction attrs with
  | nil => exact .refl rfl
  | cons attr rest ih =>
    have hfirst : (lowerNestedAttribute tag target₁ attr).Alike Eq
        (lowerNestedAttribute tag target₂ attr) := by
      rw [lowerNestedAttribute_eq, lowerNestedAttribute_eq]
      cases GivenAttribute.ofNode? attr with
      | none => exact .refl rfl
      | some g =>
        cases g with
        | spread e => exact lowerSpread_alike target₁ target₂ e
        | named name value =>
          dsimp only
          split
          · exact .refl rfl
          · -- The message quotes the tag of the outer widget.
            exact (Noted.unmapped_alike _ _).bind fun _ _ _ => .pure rfl
    refine hfirst.bind ?_
    rintro added _ rfl
    refine ih.bind ?_
    rintro more _ rfl
    exact .pure rfl

/-- What a rule gives holds no widget that is made from an element. -/
theorem RuleProperty.alike_self {tag name : String} {p : Property} (h : RuleProperty tag name p) :
    p.Alike o₁ o₂ p := by
  cases h with
  | remark key text => exact Property.alike_comment key text
  | argument key value _ hnodes => exact .mk (value.alike_self hnodes)
  | identity code => exact Property.alike_code "key" code
  | hint code =>
    exact .mk (.widget (Widget.alike_leaf "InputDecoration" []
      (.cons (Property.alike_code "hintText" code) .nil)))

/-- An argument that shows an attribute has no widget in it that could be retargeted. -/
theorem Shows.alike_self {row : ElementRow} {tag : String} {before : List Property}
    {g : GivenAttribute} {p : Property} (h : Shows row tag before g p) : p.Alike o₁ o₂ p := by
  cases h with
  | spread e => exact Property.alike_comment _ _
  | key value => exact Property.alike_code _ _
  | rule name value p hkey hrule => exact (RuleProperty.of_rule hrule).alike_self
  | unruled name value => exact Property.alike_comment _ _

/-- The arguments that attributes of an element with a row become are like themselves. -/
theorem lowerAttributes_self (o₁ o₂ : Overrides) (row : ElementRow) (tag target : String)
    (attrs : List Node) :
    ∀ p ∈ (lowerAttributes row tag target attrs {}).value.properties, p.Alike o₁ o₂ p := by
  obtain ⟨shown, hshown, hvalue⟩ := lowerAttributes_value row tag target attrs {}
  intro p hp
  rw [hvalue] at hp
  obtain ⟨g, before, -, hshows⟩ := hshown.exists_shows hp
  exact hshows.alike_self

end Attributes

/-! ### Inside a text -/

/-- Contents of two texts with the given tags that are alike. -/
structure TextContent.Alike (o₁ o₂ : Overrides) (tag₁ tag₂ : String) (a b : TextContent) :
    Prop where
  /-- The pieces are the same. -/
  pieces : a.pieces = b.pieces
  /-- The additions are alike. -/
  additions : a.additions.Alike o₁ o₂ tag₁ tag₂ b.additions

section Texts

variable {tag₁ tag₂ : String}

/-- Texts one behind the other are alike if each of them is. -/
theorem TextContent.Alike.append {a b c d : TextContent} (h : a.Alike o₁ o₂ tag₁ tag₂ b)
    (h' : c.Alike o₁ o₂ tag₁ tag₂ d) : (a ++ c).Alike o₁ o₂ tag₁ tag₂ (b ++ d) where
  pieces := congrArg₂ (· ++ ·) h.pieces h'.pieces
  additions := h.additions.append h'.additions

/-- Pieces of a text are the same whatever the tags are. -/
theorem TextContent.alike_pieces (pieces : List TextPiece) :
    TextContent.Alike o₁ o₂ tag₁ tag₂ { pieces := pieces } { pieces := pieces } :=
  ⟨rfl, Additions.alike_empty⟩

/-- What is left out of a text leaves remarks that are alike. -/
theorem leftOut_alike {s t : String} (h : RemarkAlike tag₁ tag₂ s t) :
    (leftOut s).Alike (TextContent.Alike o₁ o₂ tag₁ tag₂) (leftOut t) :=
  (Noted.unmapped_alike s t).bind fun _ _ _ => .pure ⟨rfl, Additions.alike_remark h⟩

/-- An expression in a text becomes the same pieces. -/
theorem expressionText_alike (e : Node) :
    (expressionText e).Alike (TextContent.Alike o₁ o₂ tag₁ tag₂) (expressionText e) := by
  unfold expressionText
  split
  · split
    · refine .pure ?_
      split
      · exact TextContent.alike_pieces []
      · exact TextContent.alike_pieces [_]
    · exact .pure (TextContent.alike_pieces [_])
  · split
    · exact .pure (TextContent.alike_pieces [_])
    · exact leftOut_alike (.same _)

/-- The attributes of an element inside a text become comments only. -/
theorem nestedAdditions_alike (tag : String) (attrs : List Node) :
    (lowerNestedAttributes tag tag₁ attrs).Alike (Additions.Alike o₁ o₂ tag₁ tag₂)
      (lowerNestedAttributes tag tag₂ attrs) := by
  have hsame := lowerNestedAttributes_alike tag₁ tag₂ tag attrs
  refine ⟨?_, hsame.notes⟩
  -- Both add the same, and each of the arguments is a comment.
  rw [← show _ = _ from hsame.value]
  refine Additions.alike_self fun p hp => ?_
  rw [lowerNestedAttributes_value] at hp
  obtain ⟨g, -, hg⟩ := List.mem_filterMap.mp hp
  obtain ⟨key, text, rfl⟩ := nestedComment?_eq hg
  exact Property.alike_comment key text

mutual

/-- So does a child of a text. -/
theorem collectText_alike (n : Node) :
    (collectText o₁ tag₁ n).Alike (TextContent.Alike o₁ o₂ tag₁ tag₂)
      (collectText o₂ tag₂ n) := by
  obtain ⟨form, place, parts⟩ := n
  conv => lhs; unfold collectText
  split
  · -- a text as it is written
    rw [collectText]
    refine .pure ?_
    split
    · exact TextContent.alike_pieces []
    · exact TextContent.alike_pieces [_]
  · -- braces around nothing
    rw [collectText]
    exact .pure (TextContent.alike_pieces [])
  · -- braces around an expression
    rw [collectText]
    · exact expressionText_alike _
    · assumption
  · -- an element
    next tag _ _ _ attributes _ _ _ nodes _ =>
    rw [collectText, isTextLike_eq, isTextLike_eq]
    split
    · exact (nestedAdditions_alike tag.text attributes).bind fun added _ hadded =>
        (collectTexts_alike nodes).bind fun inner _ hinner =>
          .pure (TextContent.Alike.append ⟨rfl, hadded⟩ hinner)
    · exact leftOut_alike (.element tag.text)
  · -- a fragment
    rw [collectText]
    exact collectTexts_alike _
  · -- a spread
    rw [collectText]
    exact leftOut_alike (.same _)
  · -- nothing that has a rule
    rw [collectText]
    · exact .pure (TextContent.alike_pieces [])
    all_goals assumption

/-- So do all children of a text. -/
theorem collectTexts_alike (ns : List Node) :
    (collectTexts o₁ tag₁ ns).Alike (TextContent.Alike o₁ o₂ tag₁ tag₂)
      (collectTexts o₂ tag₂ ns) := by
  match ns with
  | [] => exact .pure (TextContent.alike_pieces [])
  | n :: ns =>
    rw [collectTexts, collectTexts]
    exact (collectText_alike n).bind fun _ _ hfirst =>
      (collectTexts_alike ns).bind fun _ _ hrest => .pure (hfirst.append hrest)

end

end Texts

/-! ### Elements -/

/-- A child that becomes widgets alike under two lists of overrides. -/
def LowersAlike (o₁ o₂ : Overrides) (n : Node) : Prop :=
  (lowerNode o₁ n).Alike (Widget.AllAlike o₁ o₂) (lowerNode o₂ n)

section Elements

variable {row : ElementRow} {tag target₁ target₂ : String}

/-- The arguments that a row adds are code. -/
theorem extraArguments_alike (row : ElementRow) (ps : List Property) :
    List.Forall₂ (Property.Alike o₁ o₂) (extraArguments row ps) (extraArguments row ps) := by
  refine List.forall₂_same.mpr fun p hp => ?_
  obtain ⟨⟨key, code⟩, -, hextra⟩ := List.mem_filterMap.mp hp
  dsimp only at hextra
  split at hextra <;> cases hextra
  exact Property.alike_code key code

/-- What makes an element react to a tap is without widgets. -/
theorem tapArgument_alike (row : ElementRow) (ps : List Property) :
    List.Forall₂ (Property.Alike o₁ o₂) (tapArgument row ps) (tapArgument row ps) := by
  rw [tapArgument]
  split
  · exact .cons (Property.alike_code "onTap" emptyHandler) .nil
  · exact .nil

/-- So is a text. -/
theorem payload_alike (pieces : List TextPiece) :
    (TextPiece.payload pieces).Alike o₁ o₂ (TextPiece.payload pieces) := by
  rw [TextPiece.payload]
  split
  · exact .text _
  · exact .raw _

/-- **Texts are alike** if what is given and the content are. -/
theorem textWidget_alike (htags : Retargets o₁ o₂ (some tag) target₁ target₂) {given : Additions}
    (hgiven : ∀ p ∈ given.properties, p.Alike o₁ o₂ p) {content₁ content₂ : TextContent}
    (hcontent : content₁.Alike o₁ o₂ target₁ target₂ content₂) :
    (textWidget row tag target₁ given content₁).Alike o₁ o₂
      (textWidget row tag target₂ given content₂) := by
  have hself : given.Alike o₁ o₂ target₁ target₂ given := Additions.alike_self hgiven
  have hpayload : Value.Alike o₁ o₂ (TextPiece.payload content₁.pieces)
        (TextPiece.payload content₂.pieces) := by
    rw [hcontent.pieces]
    exact payload_alike content₂.pieces
  have hrest := List.rel_append (List.rel_append hself.properties
    (extraArguments_alike row given.properties)) hcontent.additions.properties
  exact .mk htags (.cons (.mk hpayload) hrest)
    (List.rel_append hself.comments hcontent.additions.comments) .none

/-- **Boxes are alike** if what is given, the widgets inside and the remarks on lost ones are. -/
theorem boxWidget_alike (htags : Retargets o₁ o₂ (some tag) target₁ target₂) {given : Additions}
    (hgiven : ∀ p ∈ given.properties, p.Alike o₁ o₂ p) {ws₁ ws₂ : List Widget}
    (hwidgets : Widget.AllAlike o₁ o₂ ws₁ ws₂) {remarks₁ remarks₂ : List String}
    (hremarks : List.Forall₂ (RemarkAlike target₁ target₂) remarks₁ remarks₂) :
    (boxWidget row tag target₁ given ws₁ remarks₁).Alike o₁ o₂
      (boxWidget row tag target₂ given ws₂ remarks₂) := by
  have hself : given.Alike o₁ o₂ target₁ target₂ given := Additions.alike_self hgiven
  have harguments := List.rel_append hself.properties (extraArguments_alike row given.properties)
  exact .mk htags (List.rel_append harguments (tapArgument_alike row _))
    (List.rel_append hself.comments hremarks) (row.slot.place_alike hwidgets)

/-- The comment for dropped children counts them and quotes the tag. -/
theorem dropped_alike (slot : Slot) (target₁ target₂ : String) {ws₁ ws₂ : List Widget}
    (h : Widget.AllAlike o₁ o₂ ws₁ ws₂) :
    (slot.dropped target₁ ws₁).Alike (List.Forall₂ (RemarkAlike target₁ target₂))
      (slot.dropped target₂ ws₂) := by
  cases slot with
  | single name | many name => exact .pure .nil
  | none =>
    -- Both lose equally many widgets.
    have hlength := h.length_eq
    cases h with
    | nil => exact .pure .nil
    | cons _ _ =>
      rw [Slot.dropped, Slot.dropped, hlength]
      exact (Noted.unmapped_alike _ _).bind fun _ _ _ => .pure (.cons (.children _) .nil)

/-- **An element with a row**, if its children are alike. -/
theorem lowerKnown_alike {el : Element}
    (htags : Retargets o₁ o₂ (some el.tag.text) target₁ target₂)
    (hchildren : (lowerNodes o₁ el.children).Alike (Widget.AllAlike o₁ o₂)
      (lowerNodes o₂ el.children)) :
    (lowerKnown o₁ ⟨row, target₁⟩ el).Alike (Widget.Alike o₁ o₂)
      (lowerKnown o₂ ⟨row, target₂⟩ el) := by
  have hself := lowerAttributes_self o₁ o₂ row el.tag.text target₁ el.attributes
  have hattributes := lowerAttributes_alike target₁ target₂ row el.tag.text el.attributes {}
  rw [lowerKnown, lowerKnown]
  -- The attributes give both the same arguments, so the rows add the same arguments to them.
  refine Noted.Alike.bind (R := fun a b => a = b ∧ ∀ p ∈ a.properties, p.Alike o₁ o₂ p)
    ⟨⟨hattributes.value, hself⟩, hattributes.notes⟩ ?_
  rintro given _ ⟨rfl, hgiven⟩
  -- Whether it is a text is said by the row, which both have.
  split
  · exact (collectTexts_alike el.children).bind fun _ _ hcontent =>
      .pure (textWidget_alike htags hgiven hcontent)
  · exact hchildren.bind fun _ _ hwidgets =>
      (dropped_alike row.slot target₁ target₂ hwidgets).bind fun _ _ hremarks =>
        .pure (boxWidget_alike htags hgiven hwidgets hremarks)

/-- What an argument of a component is that is no markup. -/
theorem plainArgument_alike (name : String) (value : GivenValue) :
    (plainArgument name value).Alike o₁ o₂ (plainArgument name value) := by
  cases value with
  | standsAlone => exact .flag true
  | text s => exact .text s
  | expression e | markup n => exact .raw _

/-- An attribute of a component, if the markup in it is alike. -/
theorem lowerComponentAttribute_alike (tag₁ tag₂ target : String) {attr : Node}
    (hmarkup : ∀ name n, GivenAttribute.ofNode? attr = some (.named name (.markup n)) →
      LowersAlike o₁ o₂ n) :
    (lowerComponentAttribute o₁ target attr).Alike (Additions.Alike o₁ o₂ tag₁ tag₂)
      (lowerComponentAttribute o₂ target attr) := by
  rw [lowerComponentAttribute_eq, lowerComponentAttribute_eq]
  cases hattr : GivenAttribute.ofNode? attr with
  | none => exact .pure Additions.alike_empty
  | some g =>
    cases g with
    | spread e => exact .refl (Additions.alike_argument (Property.alike_comment _ _))
    | named name value =>
      dsimp only
      split
      · exact .refl ⟨.nil, RemarkAlike.refl _⟩
      · split
        · exact .pure (Additions.alike_argument (Property.alike_code _ _))
        -- the overrides reach the value only where it is markup
        · cases value with
          | markup n =>
            exact (hmarkup name n hattr).map fun _ _ hwidgets =>
              Additions.alike_argument (.mk (.widget (siblings_alike hwidgets)))
          | standsAlone | text s | expression e =>
            exact .pure (Additions.alike_argument (.mk (plainArgument_alike name _)))

/-- The attributes of a component add alike if the markup in them is lowered alike. -/
theorem lowerComponentAttributes_alike (tag₁ tag₂ target : String) {attrs : List Node}
    (hmarkup : ∀ attr ∈ attrs, ∀ name n,
      GivenAttribute.ofNode? attr = some (.named name (.markup n)) → LowersAlike o₁ o₂ n) :
    (lowerComponentAttributes o₁ target attrs).Alike (Additions.Alike o₁ o₂ tag₁ tag₂)
      (lowerComponentAttributes o₂ target attrs) := by
  induction attrs with
  | nil => exact .pure Additions.alike_empty
  | cons attr rest ih =>
    rw [lowerComponentAttributes, lowerComponentAttributes]
    have hfirst := lowerComponentAttribute_alike tag₁ tag₂ target (hmarkup attr List.mem_cons_self)
    have hrest := ih fun a ha => hmarkup a (List.mem_cons_of_mem _ ha)
    exact hfirst.bind fun _ _ hadded => hrest.bind fun _ _ hmore => .pure (hadded.append hmore)

/-- **A component** keeps its name, if its children and the markup in its attributes are alike. -/
theorem lowerComponent_alike {el : Element}
    (htags : Retargets o₁ o₂ (some el.tag.text) el.tag.text el.tag.text)
    (hmarkup : ∀ attr ∈ el.attributes, ∀ name n,
      GivenAttribute.ofNode? attr = some (.named name (.markup n)) → LowersAlike o₁ o₂ n)
    (hchildren : (lowerNodes o₁ el.children).Alike (Widget.AllAlike o₁ o₂)
      (lowerNodes o₂ el.children)) :
    (lowerComponent o₁ el).Alike (Widget.Alike o₁ o₂) (lowerComponent o₂ el) := by
  have hattributes := lowerComponentAttributes_alike el.tag.text el.tag.text el.tag.text hmarkup
  rw [lowerComponent, lowerComponent]
  -- Its name is noted in both.
  refine Noted.Alike.bind (R := Eq) (.refl rfl) fun _ _ _ => ?_
  exact hattributes.bind fun _ _ hgiven => hchildren.bind fun _ _ hwidgets =>
    .pure (.mk htags hgiven.properties hgiven.comments (Slot.place_alike _ hwidgets))

end Elements

/-! ### Children -/

/-- Several children, if each of them is alike. -/
theorem lowerNodes_alike {ns : List Node}
    (h : ∀ n ∈ ns, LowersAlike o₁ o₂ n) :
    (lowerNodes o₁ ns).Alike (Widget.AllAlike o₁ o₂) (lowerNodes o₂ ns) := by
  induction ns with
  | nil => exact .pure .nil
  | cons n ns ih =>
    rw [lowerNodes, lowerNodes]
    have hrest := ih fun m hm => h m (List.mem_cons_of_mem _ hm)
    exact (h n List.mem_cons_self).bind fun _ _ hfirst => hrest.bind fun _ _ hmore =>
      .pure (List.rel_append hfirst hmore)

/-- **A child becomes the same widgets under all overrides, but for their tags.** -/
theorem lowerNode_alike (n : Node) : LowersAlike o₁ o₂ n := by
  induction n using Node.induction_below with
  | step n ih =>
    rw [LowersAlike, lowerNode_eq, lowerNode_eq]
    cases hform : n.childForm with
    | text shown =>
      cases shown with
      | none => exact .pure .nil
      | some s => exact .pure (.cons (Widget.alike_ofText s) .nil)
    | element el =>
      have hel := element?_of_childForm hform
      have hchildren := lowerNodes_alike fun m hm => ih m (Node.children_below hel m hm)
      have hmarkup : ∀ attr ∈ el.attributes, ∀ name m,
          GivenAttribute.ofNode? attr = some (.named name (.markup m)) → LowersAlike o₁ o₂ m := by
        intro attr hattr name m hm
        exact ih m (Node.mem_nodesOf_trans (Node.attributes_below hel attr hattr)
          (attributeMarkup_below hm))
      refine Noted.Alike.map (R := Widget.Alike o₁ o₂) ?_ fun _ _ hw => .cons hw .nil
      -- It is a component in both runs, or it has the same row in both.
      rcases Overrides.rowOf?_cases o₁ o₂ el.tag with
        ⟨hrow₁, hrow₂, htags⟩ | ⟨row, target₁, target₂, hrow₁, hrow₂, htags⟩
      · rw [lowerElement_of_component hrow₁, lowerElement_of_component hrow₂]
        exact lowerComponent_alike htags hmarkup hchildren
      · rw [lowerElement_of_row hrow₁, lowerElement_of_row hrow₂, noteTag_eq o₁ o₂]
        exact Noted.Alike.bind (R := Eq) (.refl rfl) fun _ _ _ => lowerKnown_alike htags hchildren
    | fragment nodes =>
      obtain ⟨place, rfl⟩ := fragment_of_childForm hform
      exact lowerNodes_alike fun m hm => ih m (Node.mem_nodesOf_of_mem hm)
    | inner e => exact ih e (inner_below hform)
    | spread e | expression e =>
      exact .refl (.cons (Widget.alike_placeholder _) .nil)

/-- Hence markup as a whole becomes widgets that are alike. -/
theorem lowerMarkup_alike (markup : Node) :
    (lowerMarkup o₁ markup).Alike (Widget.Alike o₁ o₂) (lowerMarkup o₂ markup) :=
  (lowerNode_alike markup).map fun _ _ hwidgets => siblings_alike hwidgets

/-- **And so does a module**: which markup is lowered does not depend on the overrides. -/
theorem lowerModule_alike (m : Module) :
    (lowerModule o₁ m).Alike (Widget.Alike o₁ o₂) (lowerModule o₂ m) := by
  unfold lowerModule
  split
  · exact lowerMarkup_alike _
  · split
    · exact Noted.Alike.bind (R := Eq) (.refl rfl) fun _ _ _ => lowerMarkup_alike _
    · exact .refl Widget.alike_empty

/-! ### Modules -/

/-- Trees of a file that are alike but for the tags of their widgets and for the wording of their
diagnostics. -/
structure LoweredTree.Alike (o₁ o₂ : Overrides) (t₁ t₂ : LoweredTree) : Prop where
  /-- The name of the component is the same. -/
  componentName : t₁.componentName = t₂.componentName
  /-- The class names are the same. -/
  classNames : t₁.classNames = t₂.classNames
  /-- The components are the same. -/
  customComponents : t₁.customComponents = t₂.customComponents
  /-- The diagnostics are of the same kinds, one for one. -/
  kinds : t₁.diagnostics.map (·.kind) = t₂.diagnostics.map (·.kind)
  /-- The trees are alike. -/
  root : t₁.root.Alike o₁ o₂ t₂.root

/-- Results alike make trees alike. -/
theorem LoweredTree.alike_ofNoted (name : Option String) {x y : Noted Widget}
    (h : x.Alike (Widget.Alike o₁ o₂) y) : (ofNoted name x).Alike o₁ o₂ (ofNoted name y) where
  componentName := rfl
  classNames := congrArg Text.sortedSet h.notes.classNames
  customComponents := congrArg Text.sortedSet h.notes.components
  kinds := h.notes.kinds
  root := h.value

/-- **Overrides change tags only.** Two configurations that differ in their overrides only give a
module trees that are alike: every widget has the tag that its configuration wants for the element
it is made from, if that element has a row of the table, and else the same tag in both. -/
theorem lowerToWidgetTree_alike (m : Module) (name : Option String) (config : Config)
    (overrides : Overrides) :
    (lowerToWidgetTree m name config).Alike config.targetOverrides overrides
      (lowerToWidgetTree m name { config with targetOverrides := overrides }) := by
  rw [lowerToWidgetTree, lowerToWidgetTree]
  exact LoweredTree.alike_ofNoted name (lowerModule_alike m)

end JsxWidgets
