import JsxWidgets.Proofs.Emission.Verbatim

/-!
# Commas

Where the code of a widget has commas can be said without the code. Arguments that something follows
all end in a comma (`FollowedText`): those in front of a child, those in front of a collection, and
those in front of the last argument. The last argument itself ends in none, and neither does a child
in a slot; an item of a list or of a collection always ends in one, and the bracket behind the items
never does. Comments among the arguments have lines of their own and do not count.

`WidgetText` is a relation between a widget and a text that says so, with the texts of all widgets
and values inside. It has one rule for each way in which arguments can end (`BlockText`), and no
rule asks what stands further behind. The code of a widget is the one text that is in this relation
to it (`widgetText_iff`).
-/

namespace JsxWidgets.Dart

/-! ### The relation -/

/-- The lines of arguments that are only comments. -/
def remarkLines (level : Nat) (ps : List Property) : String :=
  String.join (ps.map fun p => commentLines level (commentText p.key p.value))

/-- An argument without what it ends in. -/
def argumentLine (level : Nat) (key value : String) : String := pad level ++ label key ++ value

mutual

/-- **The text of a widget** whose first line starts at a level. -/
inductive WidgetText : Nat → Widget → String → Prop
  /-- A widget without a tag. -/
  | nothing {level : Nat} {w : Widget} (htag : w.tag = "") : WidgetText level w nothing
  /-- A widget with nothing to print. -/
  | bare {level : Nat} {w : Widget} (htag : w.tag ≠ "") (hempty : w.isEmpty = true) :
    WidgetText level w (bareCode w.tag)
  /-- A widget with something to print: its comments, and then arguments and children. -/
  | block {level : Nat} {w : Widget} {lines : String} (htag : w.tag ≠ "")
    (hempty : w.isEmpty = false) (hlines : BlockText (level + 1) w.properties w.children lines) :
    WidgetText level w (w.tag ++ "(" ++ "\n"
      ++ (String.join (w.comments.map (commentLines (level + 1))) ++ lines) ++ pad level ++ ")")

/-- **The lines of arguments and children.** -/
inductive BlockText : Nat → List Property → Children → String → Prop
  /-- There are no arguments and no children: there are no commas. -/
  | remarks {level : Nat} {ps : List Property} (hps : ∀ p ∈ ps, p.isComment = true) :
    BlockText level ps .none (remarkLines level ps)
  /-- The last argument ends in no comma, those in front of it do; only comments follow. -/
  | last {level : Nat} {before after : List Property} {p : Property} {front value : String}
    (hbefore : FollowedText level before front) (hp : p.isComment = false)
    (hvalue : ValueText level p.value value) (hafter : ∀ q ∈ after, q.isComment = true) :
    BlockText level (before ++ p :: after) .none
      (front ++ (argumentLine level p.key value ++ "\n") ++ remarkLines level after)
  /-- A child is the last argument, so all others end in a comma. -/
  | single {level : Nat} {ps : List Property} {slot front text : String} {w : Widget}
    (hps : FollowedText level ps front) (hw : WidgetText level w text) :
    BlockText level ps (.single slot w) (front ++ (pad level ++ slot ++ ": " ++ text ++ "\n"))
  /-- In front of a collection all arguments end in a comma. The widgets of the collection are
  items, and behind the bracket there is no comma. -/
  | many {level : Nat} {ps : List Property} {slot front items : String} {ws : List Widget}
    (hps : FollowedText level ps front) (hws : ItemsText (level + 1) (ws.map .widget) items) :
    BlockText level ps (.many slot ws)
      (front ++ (pad level ++ slot ++ ": [\n" ++ items ++ pad level ++ "]\n"))

/-- **The lines of arguments that something follows**: every argument ends in a comma. -/
inductive FollowedText : Nat → List Property → String → Prop
  /-- No arguments. -/
  | nil {level : Nat} : FollowedText level [] ""
  /-- A comment has lines of its own. -/
  | remark {level : Nat} {p : Property} {rest : List Property} {lines : String}
    (hp : p.isComment = true) (hrest : FollowedText level rest lines) :
    FollowedText level (p :: rest) (commentLines level (commentText p.key p.value) ++ lines)
  /-- An argument ends in a comma. -/
  | argument {level : Nat} {p : Property} {rest : List Property} {value lines : String}
    (hp : p.isComment = false) (hvalue : ValueText level p.value value)
    (hrest : FollowedText level rest lines) :
    FollowedText level (p :: rest) (argumentLine level p.key value ++ ",\n" ++ lines)

/-- The text of a value. -/
inductive ValueText : Nat → Value → String → Prop
  /-- Code. -/
  | raw {level : Nat} (s : String) : ValueText level (.raw s) s
  /-- A text. -/
  | text {level : Nat} (s : String) : ValueText level (.text s) (quoted s)
  /-- A truth value. -/
  | flag {level : Nat} (b : Bool) : ValueText level (.flag b) (if b then "true" else "false")
  /-- A widget. -/
  | widget {level : Nat} {w : Widget} {text : String} (hw : WidgetText level w text) :
    ValueText level (.widget w) text
  /-- A list without items. -/
  | empty {level : Nat} : ValueText level (.list []) "[]"
  /-- A list with items. -/
  | list {level : Nat} {v : Value} {vs : List Value} {items : String}
    (hitems : ItemsText (level + 1) (v :: vs) items) :
    ValueText level (.list (v :: vs)) ("[\n" ++ items ++ pad level ++ "]")

/-- **The lines of items**: every item ends in a comma, the last one too. -/
inductive ItemsText : Nat → List Value → String → Prop
  /-- No items. -/
  | nil {level : Nat} : ItemsText level [] ""
  /-- An item, and those behind it. -/
  | cons {level : Nat} {v : Value} {vs : List Value} {text items : String}
    (hv : ValueText level v text) (hvs : ItemsText level vs items) :
    ItemsText level (v :: vs) (pad level ++ text ++ ",\n" ++ items)

end

/-! ### Arguments as they are written -/

section Arguments

variable {level : Nat} {ps : List Property}

theorem emitProperties_cons_remark {p : Property} (hp : p.isComment = true) (more : Bool)
    (rest : List Property) :
    emitProperties level more (p :: rest)
      = commentLines level (commentText p.key p.value) ++ emitProperties level more rest := by
  obtain ⟨key, value, isComment⟩ := p
  obtain rfl : isComment = true := hp
  rfl

theorem emitProperties_cons_argument {p : Property} (hp : p.isComment = false) (more : Bool)
    (rest : List Property) :
    emitProperties level more (p :: rest)
      = argumentLine level p.key (emitValue level p.value)
        ++ separator (more || rest.any fun q => !q.isComment)
        ++ emitProperties level more rest := by
  obtain ⟨key, value, isComment⟩ := p
  obtain rfl : isComment = false := hp
  rfl

/-- Without an argument nothing follows. -/
theorem any_argument_eq_false (hps : ∀ p ∈ ps, p.isComment = true) :
    (ps.any fun p => !p.isComment) = false := by
  rw [List.any_eq_false]
  intro p hp
  rw [hps p hp]
  decide

/-- Comments are written alike, whatever follows. -/
theorem emitProperties_remarks (hps : ∀ p ∈ ps, p.isComment = true) (more : Bool) :
    emitProperties level more ps = remarkLines level ps := by
  induction ps with
  | nil => rfl
  | cons p rest ih =>
    rw [emitProperties_cons_remark (hps p List.mem_cons_self),
      ih fun q hq => hps q (List.mem_cons_of_mem p hq), remarkLines, remarkLines, List.map_cons,
      String.join_cons]

/-- In front of an argument all others are written as those that something follows. -/
theorem emitProperties_append_argument {p : Property} (hp : p.isComment = false)
    (before after : List Property) :
    emitProperties level false (before ++ p :: after)
      = emitProperties level true before ++ emitProperties level false (p :: after) := by
  induction before with
  | nil => rw [List.nil_append, emitProperties, String.empty_append]
  | cons q rest ih =>
    rw [List.cons_append]
    -- a remark takes no comma, so only an argument asks whether one follows
    cases hq : q.isComment with
    | true =>
      rw [emitProperties_cons_remark hq, emitProperties_cons_remark hq, ih, String.append_assoc]
    | false =>
      have hany : ((rest ++ p :: after).any fun q => !q.isComment) = true := by
        rw [List.any_append, List.any_cons, hp, Bool.not_false, Bool.true_or, Bool.or_true]
      rw [emitProperties_cons_argument hq, emitProperties_cons_argument hq, ih, hany,
        Bool.false_or, Bool.true_or, String.append_assoc]
      simp only [String.append_assoc]

end Arguments

/-- Arguments that are not only comments have a last one that is none. -/
theorem exists_last_argument {ps : List Property} (hps : ¬∀ p ∈ ps, p.isComment = true) :
    ∃ before p after, ps = before ++ p :: after ∧ p.isComment = false ∧
      ∀ q ∈ after, q.isComment = true := by
  induction ps with
  | nil => exact absurd (fun p hp => nomatch hp) hps
  | cons q rest ih =>
    by_cases hrest : ∀ p ∈ rest, p.isComment = true
    · have hq : q.isComment = false :=
        Bool.eq_false_iff.mpr fun hq => hps (List.forall_mem_cons.mpr ⟨hq, hrest⟩)
      exact ⟨[], q, rest, rfl, hq, hrest⟩
    · obtain ⟨before, p, after, rfl, hp, hafter⟩ := ih hrest
      exact ⟨q :: before, p, after, rfl, hp, hafter⟩

theorem emitItems_widgets (level : Nat) (ws : List Widget) :
    emitItems level (ws.map .widget) = emitWidgets level ws := by
  induction ws with
  | nil => rfl
  | cons w ws ih => rw [List.map_cons, emitItems, emitWidgets, ih, emitValue]

theorem emitValue_list (level : Nat) (v : Value) (vs : List Value) :
    emitValue level (.list (v :: vs))
      = "[\n" ++ emitItems (level + 1) (v :: vs) ++ pad level ++ "]" := by
  rw [emitValue, emitItems]
  simp only [String.append_assoc]

theorem blockLines_eq (level : Nat) (w : Widget) :
    blockLines level w = String.join (w.comments.map (commentLines level))
      ++ (emitProperties level (hasChildLine w.children) w.properties
        ++ emitChildren level w.children) := by
  rw [blockLines, String.append_assoc]

/-! ### The code is such a text -/

section Exists

variable {level : Nat} {ps : List Property}
  (hvalues : ∀ p ∈ ps, ValueText level p.value (emitValue level p.value))
include hvalues

theorem followedText_emitProperties : FollowedText level ps (emitProperties level true ps) := by
  induction ps with
  | nil => exact .nil
  | cons p rest ih =>
    have hrest := ih fun q hq => hvalues q (List.mem_cons_of_mem p hq)
    cases hp : p.isComment with
    | true =>
      rw [emitProperties_cons_remark hp]
      exact .remark hp hrest
    | false =>
      rw [emitProperties_cons_argument hp]
      exact .argument hp (hvalues p List.mem_cons_self) hrest

/-- Without children it is the last argument, if there is one, that has no comma. -/
theorem blockText_emitProperties : BlockText level ps .none (emitProperties level false ps) := by
  by_cases hall : ∀ p ∈ ps, p.isComment = true
  · rw [emitProperties_remarks hall]
    exact .remarks hall
  · obtain ⟨before, p, after, rfl, hp, hafter⟩ := exists_last_argument hall
    have hbefore : FollowedText level before (emitProperties level true before) :=
      followedText_emitProperties fun q hq => hvalues q (List.mem_append_left _ hq)
    have hvalue := hvalues p (List.mem_append_right _ List.mem_cons_self)
    rw [emitProperties_append_argument hp, emitProperties_cons_argument hp,
      any_argument_eq_false hafter, emitProperties_remarks hafter, ← String.append_assoc]
    exact .last hbefore hp hvalue hafter

end Exists

mutual

/-- The code of a widget is its text. -/
theorem widgetText_emitAt (level : Nat) (w : Widget) : WidgetText level w (emitAt level w) := by
  match w with
  | .mk tag properties comments children source =>
    have hvalues := valueText_emitProperties (level + 1) properties
    have hblock := blockText_emitChildren (level + 1) children hvalues
    -- the equations of the printer speak of the widget as a whole
    generalize hw : Widget.mk tag properties comments children source = w
    by_cases htag : w.tag = ""
    · rw [emitAt_nothing htag]
      exact .nothing htag
    · cases hempty : w.isEmpty with
      | true =>
        rw [emitAt_bare htag hempty]
        exact .bare htag hempty
      | false =>
        rw [emitAt_block htag hempty, blockLines_eq]
        rw [← hw] at htag hempty ⊢
        exact .block htag hempty hblock

/-- The values of arguments are written as their texts. -/
theorem valueText_emitProperties (level : Nat) (ps : List Property) :
    ∀ p ∈ ps, ValueText level p.value (emitValue level p.value) := by
  match ps with
  | [] => exact fun p hp => absurd hp List.not_mem_nil
  | .mk key value isComment :: rest =>
    exact List.forall_mem_cons.mpr
      ⟨valueText_emitValue level value, valueText_emitProperties level rest⟩

/-- Children are written behind the arguments as their text says. -/
theorem blockText_emitChildren (level : Nat) (children : Children) {ps : List Property}
    (hvalues : ∀ p ∈ ps, ValueText level p.value (emitValue level p.value)) :
    BlockText level ps children
      (emitProperties level (hasChildLine children) ps ++ emitChildren level children) := by
  match children with
  | .none =>
    rw [emitChildren, String.append_empty]
    exact blockText_emitProperties hvalues
  | .single slot w =>
    have hw := widgetText_emitAt level w
    rw [emitChildren, hasChildLine]
    exact .single (followedText_emitProperties hvalues) hw
  | .many slot ws =>
    have hws := itemsText_emitWidgets (level + 1) ws
    rw [emitChildren, hasChildLine]
    exact .many (followedText_emitProperties hvalues) hws

theorem valueText_emitValue (level : Nat) (v : Value) : ValueText level v (emitValue level v) := by
  match v with
  | .raw s =>
    rw [emitValue]
    exact .raw s
  | .text s =>
    rw [emitValue]
    exact .text s
  | .flag b =>
    rw [emitValue]
    exact .flag b
  | .widget w =>
    rw [emitValue]
    exact .widget (widgetText_emitAt level w)
  | .list [] =>
    rw [emitValue]
    exact .empty
  | .list (v :: vs) =>
    rw [emitValue_list]
    exact .list (itemsText_emitItems (level + 1) (v :: vs))

theorem itemsText_emitItems (level : Nat) (vs : List Value) :
    ItemsText level vs (emitItems level vs) := by
  match vs with
  | [] => exact .nil
  | v :: vs =>
    rw [emitItems]
    exact .cons (valueText_emitValue level v) (itemsText_emitItems level vs)

theorem itemsText_emitWidgets (level : Nat) (ws : List Widget) :
    ItemsText level (ws.map .widget) (emitWidgets level ws) := by
  cases ws with
  | nil => exact .nil
  | cons w ws =>
    rw [emitWidgets, List.map_cons]
    exact .cons (.widget (widgetText_emitAt level w)) (itemsText_emitWidgets level ws)

end

/-! ### No other text is -/

mutual

theorem WidgetText.eq {level : Nat} {w : Widget} {text : String} (h : WidgetText level w text) :
    text = emitAt level w := by
  match h with
  | .nothing htag => exact (emitAt_nothing htag).symm
  | .bare htag hempty => exact (emitAt_bare htag hempty).symm
  | .block htag hempty hlines =>
    rw [emitAt_block htag hempty, blockLines_eq, hlines.eq]

theorem BlockText.eq {level : Nat} {ps : List Property} {children : Children} {lines : String}
    (h : BlockText level ps children lines) :
    lines = emitProperties level (hasChildLine children) ps ++ emitChildren level children := by
  match h with
  | .remarks hps => rw [emitChildren, String.append_empty, emitProperties_remarks hps]
  | .last hbefore hp hvalue hafter =>
    rw [emitChildren, String.append_empty, hasChildLine, emitProperties_append_argument hp,
      emitProperties_cons_argument hp, any_argument_eq_false hafter, emitProperties_remarks hafter,
      hbefore.eq, hvalue.eq, String.append_assoc]
    rfl
  | .single hps hw => rw [emitChildren, hasChildLine, hps.eq, hw.eq]
  | .many hps hws => rw [emitChildren, hasChildLine, hps.eq, hws.eq, emitItems_widgets]

theorem FollowedText.eq {level : Nat} {ps : List Property} {lines : String}
    (h : FollowedText level ps lines) : lines = emitProperties level true ps := by
  match h with
  | .nil => rfl
  | .remark hp hrest => rw [emitProperties_cons_remark hp, hrest.eq]
  | .argument hp hvalue hrest =>
    rw [emitProperties_cons_argument hp, hvalue.eq, hrest.eq]
    rfl

theorem ValueText.eq {level : Nat} {v : Value} {text : String} (h : ValueText level v text) :
    text = emitValue level v := by
  match h with
  | .raw s | .text s | .flag b => rw [emitValue]
  | .widget hw => rw [emitValue, hw.eq]
  | .empty => rw [emitValue]
  | .list hitems => rw [emitValue_list, hitems.eq]

theorem ItemsText.eq {level : Nat} {vs : List Value} {items : String}
    (h : ItemsText level vs items) : items = emitItems level vs := by
  match h with
  | .nil => rfl
  | .cons hv hvs => rw [emitItems, hv.eq, hvs.eq]

end

/-- **Where commas stand.** The code of a widget is the one text in which, at every level of
nesting, every argument but the last ends in a comma, or every argument if a collection follows, and
in which every item of a list and of a collection ends in one. -/
theorem widgetText_iff (level : Nat) (w : Widget) (text : String) :
    WidgetText level w text ↔ text = emitAt level w := by
  constructor
  · exact WidgetText.eq
  · rintro rfl
    exact widgetText_emitAt level w

end JsxWidgets.Dart
