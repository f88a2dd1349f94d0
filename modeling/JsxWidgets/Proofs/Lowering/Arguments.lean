import JsxWidgets.Proofs.Lowering.Texts

/-!
# The arguments of a lowered element

The arguments of an element with a row stand in a fixed order: the text of a text element, one
argument for each attribute, what the row adds, what is left of the attributes of merged elements,
and a handler where the element leads somewhere.

* `Syntax.Element.arguments` is that list, given what is shown for the attributes;
* `Syntax.Element.remarks` are the comments of the widget;
* `lowerKnown_arguments` says that the widget has exactly these;
* `KnownArgument` forgets the order, for what is true of every argument.
-/

namespace JsxWidgets

open Syntax

/-! ### The list of arguments -/

/-- The arguments that a row adds where there is none with their name. -/
def ElementRow.extrasBeside (row : ElementRow) (given : List Property) : List Property :=
  (row.extras.filter fun e => !Widget.hasKey e.1 given).map fun e => .named e.1 (.raw e.2)

theorem extraArguments_eq (row : ElementRow) (given : List Property) :
    extraArguments row given = row.extrasBeside given := by
  unfold extraArguments ElementRow.extrasBeside
  induction row.extras with
  | nil => rfl
  | cons e rest ih =>
    obtain ⟨key, code⟩ := e
    -- The name is taken or not.
    cases h : Widget.hasKey key given with
    | true =>
      rw [List.filterMap_cons_none (by simp [h]), List.filter_cons_of_neg (by simp [h])]
      exact ih
    | false =>
      rw [List.filterMap_cons_some (b := .named key (.raw code)) (by simp [h]),
        List.filter_cons_of_pos (by simp [h]), List.map_cons]
      exact congrArg _ ih

namespace Syntax.Element

/-- The attributes that do not hold class names. -/
def shownAttributes (el : Element) : List GivenAttribute := el.given.filter (!·.isClass)

variable (overrides : Overrides) (el : Element) (found : ResolvedRow)

/-- The text of a text element, as its first argument. -/
def payload : List Property :=
  if found.row.roles.textLike then
    [.positional (TextPiece.payload (collectTexts overrides found.target el.children).value.pieces)]
  else []

/-- What is inside the text of a text element and is not text. -/
def lost : List Intrusion :=
  if found.row.roles.textLike then Node.intrusionsOf overrides el.children else []

/-- The arguments of an element with a row up to its handler; `shown` stands for its attributes. -/
def argumentsAhead (shown : List Property) : List Property :=
  el.payload overrides found ++ shown ++ found.row.extrasBeside shown
    ++ (el.lost overrides found).filterMap Intrusion.comment?

/-- **The arguments of an element with a row**; `shown` stands for its attributes. -/
def arguments (shown : List Property) : List Property :=
  el.argumentsAhead overrides found shown
    ++ if found.row.roles.navigational
          && !Widget.hasKey "onTap" (el.argumentsAhead overrides found shown) then
        [.named "onTap" (.raw emptyHandler)]
      else []

/-- **The comments of an element with a row**: class names in front, and then what is lost. -/
def remarks : List String :=
  el.given.filterMap (·.classRemark? "")
    ++ if found.row.roles.textLike then
        (el.lost overrides found).filterMap (Intrusion.remark? found.target)
      else
        (found.row.slot.dropped found.target (lowerNodes overrides el.children).value).value

end Syntax.Element

/-- Text elements lead nowhere. -/
theorem ElementRow.navigational_of_textLike {row : ElementRow} (hmem : row ∈ table)
    (htext : row.roles.textLike = true) : row.roles.navigational = false := by
  have hall : ∀ r ∈ table, r.roles.textLike = true → r.roles.navigational = false := by decide
  exact hall row hmem htext

section Known

variable {overrides : Overrides} {el : Element} {found : ResolvedRow}

/-- The arguments and the comments of an element with a row. -/
theorem lowerKnown_arguments (hrow : overrides.rowOf? el.tag = some found) :
    ∃ shown, ShowsInOrder found.row el.tag.text [] el.shownAttributes shown ∧
      (lowerKnown overrides found el).value.properties = el.arguments overrides found shown ∧
      (lowerKnown overrides found el).value.comments = el.remarks overrides found := by
  obtain ⟨shown, hshown, hgiven⟩ :=
    lowerAttributes_value found.row el.tag.text found.target el.attributes {}
  refine ⟨shown, hshown, ?_⟩
  have hproperties : (knownAttributes el found).value.properties = shown := by
    rw [knownAttributes, hgiven]
    exact List.nil_append shown
  have hcomments : (knownAttributes el found).value.comments
      = el.given.filterMap (·.classRemark? "") := by
    rw [knownAttributes, hgiven]
    exact List.nil_append _
  cases htext : found.row.roles.textLike with
  | true =>
    have hcontent := (collectTexts_tells overrides found.target el.children).1
    -- There is no handler at the end of a text, since no row asks for one.
    have hlead : found.row.roles.navigational = false := by
      rcases Overrides.rowOf?_mem hrow with hmem | hfallback
      · exact ElementRow.navigational_of_textLike hmem htext
      · rw [hfallback]
        rfl
    rw [lowerKnown_value_text overrides el found htext, textWidget, Widget.properties,
      Widget.comments, hproperties, hcomments, hcontent, extraArguments_eq]
    unfold Element.arguments Element.argumentsAhead Element.payload Element.remarks Element.lost
    simp only [htext, hlead, if_true, Bool.false_and, Bool.false_eq_true, if_false,
      List.append_nil, List.append_assoc]
    exact ⟨rfl, rfl⟩
  | false =>
    rw [lowerKnown_value_box overrides el found htext, boxWidget, Widget.properties,
      Widget.comments, hproperties, hcomments, extraArguments_eq]
    unfold Element.arguments Element.argumentsAhead Element.payload Element.remarks Element.lost
      tapArgument
    simp only [htext, Bool.false_eq_true, if_false, List.nil_append, List.filterMap_nil,
      List.append_nil, and_self]

/-- **The arguments and the comments of a component**: the attributes keep their names. -/
theorem lowerComponent_arguments :
    (lowerComponent overrides el).value.properties
        = el.shownAttributes.map (componentProperty overrides) ∧
      (lowerComponent overrides el).value.comments
        = el.given.filterMap (·.classRemark? "") := by
  rw [lowerComponent_value, componentWidget, Widget.properties, Widget.comments,
    lowerComponentAttributes_value]
  exact ⟨rfl, rfl⟩

end Known

/-! ### Single arguments -/

/-- **What an argument of an element with a row can be.** -/
inductive KnownArgument (row : ElementRow) (tag : String) : Property → Prop
  /-- The text of a text element. -/
  | payload (pieces : List TextPiece) :
    KnownArgument row tag (.positional (TextPiece.payload pieces))
  /-- What is shown for an attribute. -/
  | given (before : List Property) (g : GivenAttribute) (p : Property) :
    Shows row tag before g p → KnownArgument row tag p
  /-- What the row adds. -/
  | extra (key code : String) : (key, code) ∈ row.extras →
    KnownArgument row tag (.named key (.raw code))
  /-- A comment for an attribute of a merged element. -/
  | remark (key text : String) : KnownArgument row tag (.comment key text)
  /-- The handler that makes an element lead somewhere. -/
  | tap : KnownArgument row tag (.named "onTap" (.raw emptyHandler))

theorem KnownArgument.of_mem {overrides : Overrides} {el : Element} {found : ResolvedRow}
    (hrow : overrides.rowOf? el.tag = some found) {p : Property}
    (hp : p ∈ (lowerKnown overrides found el).value.properties) :
    KnownArgument found.row el.tag.text p := by
  obtain ⟨shown, hshown, hproperties, -⟩ := lowerKnown_arguments hrow
  rw [hproperties, Element.arguments, Element.argumentsAhead] at hp
  simp only [List.mem_append] at hp
  -- one case for each part of the list, in order
  rcases hp with (((hpayload | hgiven) | hextra) | hnested) | htap
  · unfold Element.payload at hpayload
    split at hpayload
    · obtain rfl := List.mem_singleton.mp hpayload
      exact .payload _
    · cases hpayload
  · obtain ⟨before, g, -, hshows⟩ := hshown.exists_shows hgiven
    exact .given before g p hshows
  · obtain ⟨⟨key, code⟩, hmem, rfl⟩ := List.mem_map.mp hextra
    exact .extra key code (List.mem_filter.mp hmem).1
  · obtain ⟨lost, -, hcomment⟩ := List.mem_filterMap.mp hnested
    obtain ⟨key, text, rfl⟩ := Intrusion.comment?_eq hcomment
    exact .remark key text
  · split at htap
    · obtain rfl := List.mem_singleton.mp htap
      exact .tap
    · cases htap

end JsxWidgets
