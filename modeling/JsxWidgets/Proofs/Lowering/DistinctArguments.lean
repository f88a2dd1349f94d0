import Mathlib.Data.List.Nodup
import JsxWidgets.Proofs.Lowering.Shape

/-!
# Distinct arguments

A call must not name an argument twice, and the slot for the children is an argument too. The
widgets of a lowered tree keep to that unless the names of the attributes collide
(`Syntax.Element.Clashes`), and `distinctArguments_of_mem_lower` says that it is exactly then that
they do not: where two attributes stand for one handler, where `id` stands in front of `key`, and
where a component has both an attribute `child` and children.

An argument of an element with a row tells which attributes can have given it (`givers`), and that
alone leaves three pairs of attributes that may share a name: two for a press, two for a change, and
`id` and `key`. Only the rule for `id` asks about the arguments in front, and only whether there is
a key among them; that is all that the induction over the attributes carries (`KeySettled`,
`ShowsInOrder.nodup_iff`). Whatever else stands among the arguments looks first whether its name is
taken (`arguments_nodup_iff`).
-/

namespace JsxWidgets

open Syntax

/-! ### Names of arguments -/

/-- The name of a real argument that has one. -/
def Property.argumentName? (p : Property) : Option String :=
  if p.isComment || p.key = "" then none else some p.key

/-- The names of the real arguments. -/
def argumentNames (ps : List Property) : List String := ps.filterMap Property.argumentName?

/-- Two real arguments with one name. -/
def Property.SharesName (p q : Property) : Prop :=
  ∃ name, p.argumentName? = some name ∧ q.argumentName? = some name

/-- The slot that children stand in. -/
def Children.slot? : Children → Option String
  | .none => Option.none
  | .single name _ => some name
  | .many name _ => some name

/-- **No argument is named twice**, nor is the slot for the children. -/
structure Widget.DistinctArguments (w : Widget) : Prop where
  /-- The names of the arguments are distinct. -/
  nodup : (argumentNames w.properties).Nodup
  /-- The children have a name of their own. -/
  slot : ∀ name, w.children.slot? = some name → name ∉ argumentNames w.properties

namespace Property

/-- An argument under a name has that name. -/
theorem argumentName?_named {key : String} (h : key ≠ "") (value : Value) :
    (named key value).argumentName? = some key := by
  simp [argumentName?, named, Property.isComment, Property.key, h]

end Property

/-- The names of arguments one behind the other are those of each. -/
theorem argumentNames_append (ps qs : List Property) :
    argumentNames (ps ++ qs) = argumentNames ps ++ argumentNames qs := List.filterMap_append

/-- A name is among them if an argument has it. -/
theorem mem_argumentNames {name : String} {ps : List Property} :
    name ∈ argumentNames ps ↔ ∃ p ∈ ps, p.argumentName? = some name := List.mem_filterMap

/-- A name is taken if it is among the names of the arguments. -/
theorem hasKey_iff_mem {name : String} (h : name ≠ "") {ps : List Property} :
    Widget.hasKey name ps = true ↔ name ∈ argumentNames ps := by
  rw [Widget.hasKey, List.any_eq_true, mem_argumentNames]
  refine exists_congr fun p => and_congr_right fun _ => ?_
  unfold Property.argumentName?
  by_cases hkey : p.key = ""
  · simp [hkey, h.symm]
  · cases p.isComment <;> simp [hkey]

/-! ### Attributes that give arguments -/

/-- The name of an attribute. -/
def GivenAttribute.name? : GivenAttribute → Option String
  | .named name _ => some name
  | .spread _ => none

/-- The names of attributes, in order. -/
def GivenAttribute.namesOf (gs : List GivenAttribute) : List String := gs.filterMap (·.name?)

/-- The names of the attributes of an element. -/
def Syntax.Element.attributeNames (el : Element) : List String := GivenAttribute.namesOf el.given

namespace GivenAttribute

/-- The names of attributes start with that of the first one. -/
@[simp] theorem namesOf_named (name : String) (value : GivenValue) (gs : List GivenAttribute) :
    namesOf (.named name value :: gs) = name :: namesOf gs := rfl

/-- A name is among them if an attribute has it. -/
theorem mem_namesOf {name : String} {gs : List GivenAttribute} :
    name ∈ namesOf gs ↔ ∃ value, .named name value ∈ gs := by
  rw [namesOf, List.mem_filterMap]
  constructor
  · rintro ⟨g, hg, hname⟩
    cases g with
    | spread e => cases hname
    | named name value =>
      cases hname
      exact ⟨value, hg⟩
  · rintro ⟨value, hg⟩
    exact ⟨_, hg, rfl⟩

/-- The names of the attributes behind the first one are names of the attributes. -/
theorem namesOf_tail_subset (g : GivenAttribute) (gs : List GivenAttribute) :
    namesOf gs ⊆ namesOf (g :: gs) := ((List.sublist_cons_self g gs).filterMap _).subset

end GivenAttribute

/-- The attributes that can give an argument with a name to an element with a row. -/
def givers (name : String) : List String :=
  match name with
  | "onPressed" | "onTap" => ["onClick", "onPress"]
  | "onChanged" => ["onChange", "onChangeText"]
  | "onLongPress" => ["onLongPress"]
  | "controller" | "value" => ["value"]
  | "enabled" => ["disabled"]
  | "restorationId" => ["id"]
  | "key" => ["key", "id"]
  | "obscureText" | "keyboardType" => ["type"]
  | "semanticLabel" => ["alt"]
  | "decoration" => ["placeholder"]
  | _ => []

/-- **Two attributes in this order whose arguments have one name.** -/
inductive Collide (tag : String) : String → String → Prop
  /-- Two handlers for a press. -/
  | click : Collide tag "onClick" "onPress"
  /-- Two handlers for a press, the other way round. -/
  | press : Collide tag "onPress" "onClick"
  /-- Two handlers for a change. -/
  | change : Collide tag "onChange" "onChangeText"
  /-- Two handlers for a change, the other way round. -/
  | changeText : Collide tag "onChangeText" "onChange"
  /-- An identity stands for the key and is followed by the key. -/
  | identity : isTextInput tag = false → Collide tag "id" "key"

namespace Additions

/-- Additions whose arguments can be given by an attribute with this name. -/
def GivenBy (name : String) (a : Additions) : Prop :=
  ∀ k ∈ argumentNames a.properties, name ∈ givers k

/-- An argument is given by an attribute that can give it. -/
theorem givenBy_named {name key : String} {value : Value} (h : name ∈ givers key) :
    GivenBy name (.argument (.named key value)) := by
  intro k hk
  obtain ⟨p, hp, hname⟩ := mem_argumentNames.mp hk
  obtain rfl := List.mem_singleton.mp hp
  unfold Property.argumentName? at hname
  split at hname <;> cases hname
  exact h

/-- A comment is no argument, so any attribute may give it. -/
theorem givenBy_comment (name key text : String) : GivenBy name (.comment key text) := nofun

/-- Nor has an argument without a name one that could clash. -/
theorem givenBy_positional (name : String) (value : Value) :
    GivenBy name (.argument (.positional value)) := nofun

end Additions

open Additions

/-- The value of an input is given by `value`. -/
theorem lowerValue_givenBy (tag : String) (value : GivenValue) :
    (lowerValue tag value).GivenBy "value" := by
  unfold lowerValue
  dsimp only
  split
  · exact givenBy_named (by decide)
  · exact givenBy_named (by decide)
  · exact givenBy_comment _ _ _
  · exact givenBy_named (by decide)

/-- What disables an element is given by `disabled`. -/
theorem lowerDisabled_givenBy (value : GivenValue) : (lowerDisabled value).GivenBy "disabled" := by
  unfold lowerDisabled
  split <;> exact givenBy_named (by decide)

/-- The type of an input is given by `type`. -/
theorem lowerInputType?_givenBy {type : String} {a : Additions}
    (h : lowerInputType? type = some a) : a.GivenBy "type" := by
  unfold lowerInputType? at h
  split at h <;> cases h
  case h_6 => exact givenBy_comment _ _ _
  all_goals exact givenBy_named (by decide)

/-- The arguments that a rule gives come from an attribute that can give them. -/
theorem attributeRule?_givenBy {row : ElementRow} {tag : String} {keyed : Bool} {name : String}
    {value : GivenValue} {a : Additions} (h : attributeRule? row tag keyed name value = some a) :
    a.GivenBy name := by
  have tapKey (name : String) (hname : name ∈ ["onClick", "onPress"]) :
      name ∈ givers (if row.roles.buttonLike then "onPressed" else "onTap") := by
    split <;> exact hname
  unfold attributeRule? at h
  -- one case for each name with a rule, in order
  split at h
  · cases h; exact givenBy_named (tapKey _ (by decide))
  · cases h; exact givenBy_named (tapKey _ (by decide))
  · cases h; exact givenBy_named (by decide)
  · cases h; exact givenBy_named (by decide)
  · cases h; exact givenBy_named (by decide)
  · cases h; exact lowerValue_givenBy tag value
  · cases h; exact lowerDisabled_givenBy value
  · split at h
    · cases h; exact givenBy_named (by decide)
    · split at h <;> cases h
      exact givenBy_named (by decide)
  · split at h
    · exact lowerInputType?_givenBy h
    · split at h <;> cases h
      exact givenBy_comment _ _ _
  · split at h <;> cases h
    exact givenBy_positional _ _
  · split at h <;> cases h
    exact givenBy_named (by decide)
  · split at h <;> cases h
    exact givenBy_comment _ _ _
  · split at h <;> cases h
    exact givenBy_named (by decide)
  · cases h

/-! ### Two attributes -/

section Shows

variable {row : ElementRow} {tag name : String} {before : List Property} {g : GivenAttribute}
  {value : GivenValue} {p : Property}

/-- An argument with a name is given by an attribute that can give it. -/
theorem Shows.exists_giver (h : Shows row tag before g p) {k : String}
    (hk : p.argumentName? = some k) : ∃ name value, g = .named name value ∧ name ∈ givers k := by
  cases h with
  | spread e => cases hk
  | unruled name value => cases hk
  | key value =>
    cases hk
    exact ⟨"key", value, rfl, (by decide : "key" ∈ givers "key")⟩
  | rule name value p hkey hrule =>
    refine ⟨name, value, rfl, attributeRule?_givenBy hrule k ?_⟩
    exact mem_argumentNames.mpr ⟨p, List.mem_cons_self, hk⟩

/-- The key of an element is named `key`. -/
theorem Shows.argumentName?_key (h : Shows row tag before (.named "key" value) p) :
    p.argumentName? = some "key" := by
  cases h with
  | key => rfl
  | rule _ _ _ hkey => exact absurd rfl hkey
  | unruled _ _ hkey => exact absurd rfl hkey

/-- Where there is a rule, the argument is what it gives. -/
theorem Shows.argumentName?_rule (h : Shows row tag before (.named name value) p)
    (hkey : name ≠ "key") {key code : String} (hne : key ≠ "")
    (hrule : attributeRule? row tag (Widget.hasKey "key" before) name value
      = some (.code key code)) : p.argumentName? = some key := by
  cases h with
  | key => exact absurd rfl hkey
  | unruled _ _ _ hnone =>
    rw [hrule] at hnone
    cases hnone
  | rule _ _ p _ hsome =>
    rw [hrule] at hsome
    injection hsome with hsome
    injection hsome with hsome
    injection hsome with hsome
    subst hsome
    exact Property.argumentName?_named hne _

/-- Where there is no rule, there is only a comment. -/
theorem Shows.argumentName?_unruled (h : Shows row tag before (.named name value) p)
    (hkey : name ≠ "key")
    (hrule : attributeRule? row tag (Widget.hasKey "key" before) name value = none) :
    p.argumentName? = none := by
  cases h with
  | key => exact absurd rfl hkey
  | unruled => rfl
  | rule _ _ p _ hsome =>
    rw [hrule] at hsome
    cases hsome

/-- On anything but a text input, `id` gives the key unless there is one. -/
theorem Shows.argumentName?_id (h : Shows row tag before (.named "id" value) p) :
    p.argumentName? = some "key" ↔
      Widget.hasKey "key" before = false ∧ isTextInput tag = false := by
  have hid : "id" ≠ "key" := by decide
  -- on a text input `id` has a rule of its own, elsewhere it gives way to a key
  cases htag : isTextInput tag with
  | true =>
    have hrule : attributeRule? row tag (Widget.hasKey "key" before) "id" value
        = some (.code "restorationId" value.code) := by simp [attributeRule?, htag]
    rw [h.argumentName?_rule hid (by decide) hrule]
    simp
  | false =>
    cases hbefore : Widget.hasKey "key" before with
    | true =>
      rw [h.argumentName?_unruled hid (by simp [attributeRule?, htag, hbefore])]
      simp
    | false =>
      have hrule := attributeRule?_id row htag value
      rw [← hbefore] at hrule
      rw [h.argumentName?_rule hid (by decide) hrule]
      simp

/-- Both names for a press give the same argument. -/
theorem Shows.argumentName?_press (h : Shows row tag before (.named name value) p)
    (hname : name ∈ ["onClick", "onPress"]) :
    p.argumentName? = some (if row.roles.buttonLike then "onPressed" else "onTap") := by
  have hne : (if row.roles.buttonLike then "onPressed" else "onTap") ≠ "" := by
    split <;> decide
  simp only [List.mem_cons, List.not_mem_nil, or_false] at hname
  rcases hname with rfl | rfl
  · exact h.argumentName?_rule (by decide) hne rfl
  · exact h.argumentName?_rule (by decide) hne rfl

/-- Both names for a change give the same argument. -/
theorem Shows.argumentName?_change (h : Shows row tag before (.named name value) p)
    (hname : name ∈ ["onChange", "onChangeText"]) : p.argumentName? = some "onChanged" := by
  simp only [List.mem_cons, List.not_mem_nil, or_false] at hname
  rcases hname with rfl | rfl
  · exact h.argumentName?_rule (by decide) (by decide) rfl
  · exact h.argumentName?_rule (by decide) (by decide) rfl

/-- Two attributes that can give one argument are a pair of handlers, or the key and `id`. -/
theorem givers_cases (tag : String) {k first second : String} (hfirst : first ∈ givers k)
    (hsecond : second ∈ givers k) (hne : first ≠ second) :
    Collide tag first second ∨
      k = "key" ∧ (first = "key" ∧ second = "id" ∨ first = "id" ∧ second = "key") := by
  unfold givers at hfirst hsecond
  split at hfirst <;>
    simp only [List.mem_cons, List.not_mem_nil, or_false] at hfirst hsecond <;>
    grind [Collide]

/-- **When two attributes give arguments with one name**: their names collide. What is known of the
arguments in front of both is whether there is a key among them. -/
theorem Shows.sameName_iff {before' : List Property} {first second : String}
    {value value' : GivenValue} {p q : Property}
    (h : Shows row tag before (.named first value) p)
    (h' : Shows row tag before' (.named second value') q) (hne : first ≠ second)
    (hbefore : first = "id" → second = "key" → Widget.hasKey "key" before = false)
    (hbehind : p.argumentName? = some "key" → Widget.hasKey "key" before' = true) :
    p.SharesName q ↔ Collide tag first second := by
  constructor
  · rintro ⟨k, hp, hq⟩
    obtain ⟨_, _, ⟨⟩, hfirst⟩ := h.exists_giver hp
    obtain ⟨_, _, ⟨⟩, hsecond⟩ := h'.exists_giver hq
    rcases givers_cases tag hfirst hsecond hne with hc | ⟨rfl, ⟨rfl, rfl⟩ | ⟨rfl, rfl⟩⟩
    · exact hc
    · -- Behind the key, `id` gives way to it.
      have hnone := (h'.argumentName?_id.mp hq).1
      rw [hbehind hp] at hnone
      cases hnone
    · exact .identity (h.argumentName?_id.mp hp).2
  · -- Both names of a handler have the same rule.
    intro hcollide
    cases hcollide with
    | click | press =>
      exact ⟨_, h.argumentName?_press (by decide), h'.argumentName?_press (by decide)⟩
    | change | changeText =>
      exact ⟨_, h.argumentName?_change (by decide), h'.argumentName?_change (by decide)⟩
    | identity htag =>
      exact ⟨"key", h.argumentName?_id.mpr ⟨hbefore rfl rfl, htag⟩, h'.argumentName?_key⟩

end Shows

/-! ### All attributes of an element with a row -/

section InOrder

variable {row : ElementRow} {tag : String} {before : List Property} {gs : List GivenAttribute}
  {ps : List Property}

/-- What holds of an argument if and only if something holds of its attribute holds of all arguments
if it holds of all attributes. The arguments in front of it include the first ones. -/
theorem ShowsInOrder.forall_iff {A : Property → Prop} {B : GivenAttribute → Prop}
    (h : ShowsInOrder row tag before gs ps)
    (hiff : ∀ before' g p,
      (Widget.hasKey "key" before = true → Widget.hasKey "key" before' = true) → g ∈ gs →
      Shows row tag before' g p → (A p ↔ B g)) :
    (∀ p ∈ ps, A p) ↔ ∀ g ∈ gs, B g := by
  induction h with
  | nil => simp
  | @cons before g p gs ps hshows _ ih =>
    rw [List.forall_mem_cons, List.forall_mem_cons,
      hiff before g p id List.mem_cons_self hshows, ih fun before' g' p' hkeyed hg' => ?_]
    refine hiff before' g' p' (fun hkey => hkeyed ?_) (List.mem_cons_of_mem g hg')
    rw [hasKey_append, hkey, Bool.true_or]

/-- No name occurs twice if the first argument shares its name with no other, and no name occurs
twice among those. -/
theorem argumentNames_cons_nodup {p : Property} :
    (argumentNames (p :: ps)).Nodup ↔
      (∀ q ∈ ps, ¬ p.SharesName q) ∧ (argumentNames ps).Nodup := by
  rw [argumentNames, List.filterMap_cons, ← argumentNames]
  unfold Property.SharesName
  cases hp : p.argumentName? with
  | none => simp
  | some name =>
    simp only [List.nodup_cons, mem_argumentNames, Option.some.injEq, exists_eq_left',
      not_exists, not_and]

/-- Of the two attributes that can give a key, one at most comes behind a key. -/
def KeySettled (before : List Property) (names : List String) : Prop :=
  Widget.hasKey "key" before = true → "id" ∉ names ∨ "key" ∉ names

/-- An attribute settles the key for those behind it if it gives one. -/
theorem Shows.keySettled {g : GivenAttribute} {p : Property} (h : Shows row tag before g p)
    (hnames : (GivenAttribute.namesOf (g :: gs)).Nodup)
    (hbefore : KeySettled before (GivenAttribute.namesOf (g :: gs))) :
    KeySettled (before ++ [p]) (GivenAttribute.namesOf gs) := by
  intro hkeyed
  have hsub := GivenAttribute.namesOf_tail_subset g gs
  rw [hasKey_append, Bool.or_eq_true] at hkeyed
  rcases hkeyed with hkeyed | hkeyed
  · exact (hbefore hkeyed).imp (fun hid hmem => hid (hsub hmem)) fun hkey hmem => hkey (hsub hmem)
  · -- The attribute gives the key itself, and its name does not come again.
    obtain ⟨q, hq, hname⟩ := mem_argumentNames.mp ((hasKey_iff_mem (by decide)).mp hkeyed)
    obtain rfl := List.mem_singleton.mp hq
    obtain ⟨name, value, rfl, hgiver⟩ := h.exists_giver hname
    have hnotin := (List.nodup_cons.mp hnames).1
    rcases List.mem_cons.mp hgiver with rfl | hgiver
    · exact Or.inr hnotin
    · obtain rfl := List.mem_singleton.mp hgiver
      exact Or.inl hnotin

/-- The first argument shares its name with one behind it if and only if its attribute collides with
one behind it. -/
theorem ShowsInOrder.first_shares_iff {first : String} {value : GivenValue} {p : Property}
    (hshows : Shows row tag before (.named first value) p)
    (hrest : ShowsInOrder row tag (before ++ [p]) gs ps)
    (hfirst : first ∉ GivenAttribute.namesOf gs)
    (hbefore : KeySettled before (first :: GivenAttribute.namesOf gs)) :
    (∀ q ∈ ps, ¬ p.SharesName q) ↔
      ∀ second ∈ GivenAttribute.namesOf gs, ¬ Collide tag first second := by
  have hothers := hrest.forall_iff (A := fun q => ¬ p.SharesName q)
    (B := fun g => ∀ second ∈ g.name?, ¬ Collide tag first second)
    fun before' g q hkeyed hg hshows' => ?_
  · rw [hothers]
    simp only [GivenAttribute.namesOf, List.mem_filterMap]
    exact ⟨fun h second ⟨g, hg, hname⟩ => h g hg second hname,
      fun h g hg second hname => h second ⟨g, hg, hname⟩⟩
  · cases g with
    | spread e =>
      cases hshows'
      exact iff_of_true (by rintro ⟨k, -, ⟨⟩⟩) nofun
    | named second value' =>
      have hmem : second ∈ GivenAttribute.namesOf gs :=
        GivenAttribute.mem_namesOf.mpr ⟨value', hg⟩
      have hne : first ≠ second := fun heq => hfirst (heq ▸ hmem)
      simp only [GivenAttribute.name?, Option.mem_some_iff, forall_eq']
      refine not_congr (hshows.sameName_iff hshows' hne ?_ fun hkey => hkeyed ?_)
      · -- A key in front would be given by one of the two attributes.
        rintro rfl rfl
        refine Bool.eq_false_iff.mpr fun hkey => ?_
        rcases hbefore hkey with hid | hkey
        · exact hid List.mem_cons_self
        · exact hkey (List.mem_cons_of_mem _ hmem)
      · refine (hasKey_iff_mem (by decide)).mpr (mem_argumentNames.mpr ⟨p, ?_, hkey⟩)
        exact List.mem_append_right _ List.mem_cons_self

/-- **The arguments for the attributes have distinct names** if and only if no two of the attributes
collide. -/
theorem ShowsInOrder.nodup_iff (h : ShowsInOrder row tag before gs ps)
    (hnames : (GivenAttribute.namesOf gs).Nodup)
    (hbefore : KeySettled before (GivenAttribute.namesOf gs)) :
    (argumentNames ps).Nodup ↔
      (GivenAttribute.namesOf gs).Pairwise fun first second => ¬ Collide tag first second := by
  induction h with
  | nil => exact ⟨fun _ => .nil, fun _ => .nil⟩
  | @cons before g p gs ps hshows hrest ih =>
    have hbehind := hshows.keySettled hnames hbefore
    rw [argumentNames_cons_nodup]
    -- a spread names no argument, so nothing can collide with it
    cases g with
    | spread e =>
      cases hshows
      rw [ih hnames hbehind]
      exact and_iff_right fun q _ => by rintro ⟨k, ⟨⟩, -⟩
    | named first value =>
      obtain ⟨hfirst, hnodup⟩ := List.nodup_cons.mp hnames
      rw [hrest.first_shares_iff hshows hfirst hbefore, ih hnodup hbehind,
        GivenAttribute.namesOf_named, List.pairwise_cons]

end InOrder

/-! ### Slots -/

/-- The name of a slot. -/
def Slot.name? : Slot → Option String
  | .none => Option.none
  | .single name => some name
  | .many name => some name

/-- The children stand in the slot if there are any. -/
theorem Slot.slot?_place (slot : Slot) (ws : List Widget) :
    (slot.place ws).slot? = if ws.isEmpty then Option.none else slot.name? := by
  -- The cases are those in which a slot tells numbers of widgets apart.
  cases slot with
  | none => cases ws <;> rfl
  | single name =>
    match ws with
    | [] | [_] | _ :: _ :: _ => rfl
  | many name => cases ws <;> rfl

/-- A row is one of a list that can be gone through. -/
theorem ElementRow.mem_rows {row : ElementRow} (hrow : row ∈ table ∨ row = .fallback) :
    row ∈ fallback :: table := by
  rcases hrow with hmem | rfl
  · exact List.mem_cons_of_mem _ hmem
  · exact List.mem_cons_self

/-- No attribute gives an argument with the name of a slot, and no row adds one. -/
theorem ElementRow.slot_absent {row : ElementRow} (hrow : row ∈ table ∨ row = .fallback)
    {name : String} (h : row.slot.name? = some name) :
    givers name = [] ∧ name ∉ row.extras.map (·.1) := by
  have hall : ∀ r ∈ fallback :: table, ∀ name ∈ r.slot.name?,
      givers name = [] ∧ name ∉ r.extras.map (·.1) := by decide
  exact hall row (mem_rows hrow) name h

/-- What a row adds has names, all distinct. -/
theorem ElementRow.extras_distinct {row : ElementRow} (hrow : row ∈ table ∨ row = .fallback) :
    (row.extras.map (·.1)).Nodup ∧ "" ∉ row.extras.map (·.1) := by
  have hall : ∀ r ∈ fallback :: table,
      (r.extras.map (·.1)).Nodup ∧ "" ∉ r.extras.map (·.1) := by decide
  exact hall row (mem_rows hrow)

/-! ### Elements -/

/-- **Two arguments of the widget of an element have one name**, or an argument has the name of the
slot. -/
inductive Syntax.Element.Clashes (overrides : Overrides) (el : Element) : Prop
  /-- Two attributes stand for one argument. -/
  | attributes (found : ResolvedRow) (first second : String) :
    overrides.rowOf? el.tag = some found → [first, second].Sublist el.attributeNames →
    Collide el.tag.text first second → Clashes overrides el
  /-- A component has an argument `child` beside its children. -/
  | child : overrides.rowOf? el.tag = none → "child" ∈ el.attributeNames →
    (lowerNodes overrides el.children).value ≠ [] → Clashes overrides el

section Element

variable {overrides : Overrides} {el : Element} {found : ResolvedRow}

/-- Without the class names, the other names stay in their order. -/
theorem namesOf_shownAttributes (el : Element) :
    GivenAttribute.namesOf el.shownAttributes = el.attributeNames.filter (!isClassAttribute ·) := by
  unfold Element.shownAttributes Element.attributeNames
  induction el.given with
  | nil => rfl
  | cons g gs ih =>
    cases g with
    | spread e => exact ih
    | named name value =>
      rw [List.filter_cons, GivenAttribute.namesOf_named, List.filter_cons, ← ih]
      cases hclass : isClassAttribute name <;> simp [GivenAttribute.isClass, hclass]

/-- Names that collide are no names for classes. -/
theorem Collide.not_class {tag first second : String} (h : Collide tag first second) :
    isClassAttribute first = false ∧ isClassAttribute second = false := by
  cases h <;> decide

/-- What is added behind, with names that are not taken, keeps names distinct. -/
theorem argumentNames_append_nodup {ps qs : List Property} (hqs : (argumentNames qs).Nodup)
    (habsent : ∀ name ∈ argumentNames qs, name ∉ argumentNames ps) :
    (argumentNames (ps ++ qs)).Nodup ↔ (argumentNames ps).Nodup := by
  rw [argumentNames_append, List.nodup_append]
  refine ⟨fun h => h.1, fun h => ⟨h, hqs, fun a ha b hb => ?_⟩⟩
  rintro rfl
  exact habsent a hb ha

/-- Extra arguments are named as in the row, but for those that are there already. -/
theorem argumentNames_extrasBeside {row : ElementRow} (hnamed : "" ∉ row.extras.map (·.1))
    (shown : List Property) :
    argumentNames (row.extrasBeside shown)
      = (row.extras.filter fun e => !Widget.hasKey e.1 shown).map (·.1) := by
  unfold argumentNames ElementRow.extrasBeside
  rw [List.filterMap_map, ← List.filterMap_eq_map]
  refine List.filterMap_congr fun e he => ?_
  refine Property.argumentName?_named (fun hempty => hnamed ?_) _
  exact hempty ▸ List.mem_map_of_mem (List.mem_filter.mp he).1

/-- The arguments have distinct names if those for the attributes have: the others make sure that
their names are not taken. -/
theorem arguments_nodup_iff (hrow : overrides.rowOf? el.tag = some found) (shown : List Property) :
    (argumentNames (el.arguments overrides found shown)).Nodup ↔ (argumentNames shown).Nodup := by
  obtain ⟨hdistinct, hnamed⟩ := ElementRow.extras_distinct (Overrides.rowOf?_mem hrow)
  have hextras := argumentNames_extrasBeside hnamed shown
  have hpayload : argumentNames (el.payload overrides found) = [] := by
    unfold Element.payload
    split <;> rfl
  have hcomments :
      argumentNames ((el.lost overrides found).filterMap Intrusion.comment?) = [] := by
    refine List.filterMap_eq_nil_iff.mpr fun p hp => ?_
    obtain ⟨lost, -, hlost⟩ := List.mem_filterMap.mp hp
    obtain ⟨key, text, rfl⟩ := Intrusion.comment?_eq hlost
    rfl
  -- behind everything else, the handler
  have hahead : (argumentNames (el.argumentsAhead overrides found shown)).Nodup
      ↔ (argumentNames shown).Nodup := by
    unfold Element.argumentsAhead
    rw [argumentNames_append, hcomments, List.append_nil, List.append_assoc, argumentNames_append,
      hpayload, List.nil_append]
    refine argumentNames_append_nodup ?_ fun name hname htaken => ?_
    · rw [hextras]
      exact hdistinct.sublist (List.filter_sublist.map _)
    · rw [hextras] at hname
      obtain ⟨e, he, rfl⟩ := List.mem_map.mp hname
      obtain ⟨hmem, hfree⟩ := List.mem_filter.mp he
      have hne : e.1 ≠ "" := fun hempty => hnamed (hempty ▸ List.mem_map_of_mem hmem)
      rw [(hasKey_iff_mem hne).mpr htaken] at hfree
      cases hfree
  rw [← hahead, Element.arguments]
  split
  · next htap =>
    refine argumentNames_append_nodup (List.nodup_singleton "onTap") fun name hname htaken => ?_
    obtain rfl : name = "onTap" := List.mem_singleton.mp hname
    rw [(hasKey_iff_mem (by decide)).mpr htaken] at htap
    simp at htap
  · rw [List.append_nil]

/-- The slot of an element with a row has a name that no argument has. -/
theorem KnownArgument.argumentName?_ne {row : ElementRow} {tag : String} {p : Property}
    (h : KnownArgument row tag p) (hrow : row ∈ ElementRow.table ∨ row = .fallback) {name : String}
    (hname : row.slot.name? = some name) : p.argumentName? ≠ some name := by
  obtain ⟨hnone, hextra⟩ := ElementRow.slot_absent hrow hname
  intro hp
  -- one case for each origin of an argument; none of them uses the name of the slot
  cases h with
  | payload pieces => cases hp
  | given before g p hshows =>
    obtain ⟨_, _, -, hgiver⟩ := hshows.exists_giver hp
    rw [hnone] at hgiver
    cases hgiver
  | extra key code hmem =>
    unfold Property.argumentName? at hp
    split at hp
    · cases hp
    · cases hp
      exact hextra (List.mem_map_of_mem hmem)
  | remark key text => cases hp
  | tap =>
    cases hp
    exact absurd hnone (by decide)

/-- **The arguments of an element with a row** are distinct if and only if no attributes collide. -/
theorem lowerKnown_distinct (hrow : overrides.rowOf? el.tag = some found)
    (hnames : el.attributeNames.Nodup) :
    (lowerKnown overrides found el).value.DistinctArguments ↔ ¬ el.Clashes overrides := by
  have hmem := Overrides.rowOf?_mem hrow
  obtain ⟨shown, hshown, hproperties, -⟩ := lowerKnown_arguments hrow
  -- the arguments in order decide; the slot is looked at afterwards
  have hnodup : (argumentNames (lowerKnown overrides found el).value.properties).Nodup ↔
      ¬ el.Clashes overrides := by
    rw [hproperties, arguments_nodup_iff hrow, hshown.nodup_iff ?_ nofun,
      namesOf_shownAttributes, List.pairwise_filter, List.pairwise_iff_forall_sublist]
    · constructor
      · rintro h (⟨_, first, second, -, hsub, hcollide⟩ | ⟨hnone, -, -⟩)
        · obtain ⟨hfirst, hsecond⟩ := hcollide.not_class
          exact h hsub (by simp [hfirst]) (by simp [hsecond]) hcollide
        · rw [hrow] at hnone
          cases hnone
      · exact fun h first second hsub _ _ hcollide =>
          h (.attributes found first second hrow hsub hcollide)
    · rw [namesOf_shownAttributes]
      exact hnames.sublist List.filter_sublist
  refine ⟨fun h => hnodup.mp h.nodup, fun h => ⟨hnodup.mpr h, fun name hname htaken => ?_⟩⟩
  obtain ⟨p, hp, hpname⟩ := mem_argumentNames.mp htaken
  refine (KnownArgument.of_mem hrow hp).argumentName?_ne hmem ?_ hpname
  -- a text has no slot, a box only its row's
  cases htext : found.row.roles.textLike with
  | true =>
    rw [lowerKnown_value_text overrides el found htext] at hname
    cases hname
  | false =>
    rw [lowerKnown_value_box overrides el found htext, boxWidget, Widget.children,
      Slot.slot?_place] at hname
    split at hname
    · cases hname
    · exact hname

/-- The arguments of a component have the names of its attributes. -/
theorem argumentName?_componentProperty (overrides : Overrides) (g : GivenAttribute) :
    (componentProperty overrides g).argumentName? = g.name?.filter (· ≠ "") := by
  cases g with
  | spread e => rfl
  | named name value =>
    rw [componentProperty, GivenAttribute.name?]
    split
    · next hkey =>
      subst hkey
      rfl
    · by_cases hempty : name = ""
      · subst hempty
        rfl
      · rw [Property.argumentName?_named hempty, Option.filter_some_pos (by simpa using hempty)]

/-- A component names its arguments like its attributes. -/
theorem argumentNames_lowerComponent (overrides : Overrides) (el : Element) :
    argumentNames (lowerComponent overrides el).value.properties
      = (GivenAttribute.namesOf el.shownAttributes).filter (· ≠ "") := by
  rw [lowerComponent_arguments.1, argumentNames, List.filterMap_map, GivenAttribute.namesOf,
    List.filter_filterMap]
  exact List.filterMap_congr fun g _ => argumentName?_componentProperty overrides g

/-- **The arguments of a component** are distinct if and only if there is no argument `child` beside
children. -/
theorem lowerComponent_distinct (hrow : overrides.rowOf? el.tag = none)
    (hnames : el.attributeNames.Nodup) :
    (lowerComponent overrides el).value.DistinctArguments ↔ ¬ el.Clashes overrides := by
  have hargs := argumentNames_lowerComponent overrides el
  rw [namesOf_shownAttributes] at hargs
  -- a component has the slot `child`, and only if there are children
  have hslot : (lowerComponent overrides el).value.children.slot?
      = if (lowerNodes overrides el.children).value.isEmpty then none else some "child" := by
    rw [lowerComponent_value, componentWidget, Widget.children, Slot.slot?_place]
    rfl
  constructor
  · rintro h (⟨found, -, -, hsome, -, -⟩ | ⟨-, hchild, hchildren⟩)
    · rw [hrow] at hsome
      cases hsome
    · refine h.slot "child" ?_ ?_
      · rw [hslot, if_neg (by simpa using hchildren)]
      · rw [hargs]
        exact List.mem_filter.mpr ⟨List.mem_filter.mpr ⟨hchild, by decide⟩, by decide⟩
  · refine fun h => ⟨?_, fun name hname htaken => ?_⟩
    · rw [hargs]
      exact hnames.sublist (List.filter_sublist.trans List.filter_sublist)
    · rw [hslot] at hname
      split at hname <;> cases hname
      rw [hargs] at htaken
      refine h (.child hrow (List.mem_of_mem_filter (List.mem_of_mem_filter htaken)) ?_)
      next hchildren => simpa using hchildren

/-- **An element has distinct arguments exactly if it does not clash**, provided that no attribute
is given twice. -/
theorem lowerElement_distinct (overrides : Overrides) (hnames : el.attributeNames.Nodup) :
    (lowerElement overrides el).value.DistinctArguments ↔ ¬ el.Clashes overrides := by
  cases hrow : overrides.rowOf? el.tag with
  | none =>
    rw [lowerElement_of_component hrow]
    exact lowerComponent_distinct hrow hnames
  | some found =>
    rw [lowerElement_of_row hrow]
    exact lowerKnown_distinct hrow hnames

end Element

/-! ### Trees -/

/-- A loose widget has one argument at most. -/
theorem Widget.DistinctArguments.of_loose {w : Widget} (h : w.Loose) : w.DistinctArguments where
  nodup := by
    cases h with
    | nothing | placeholder comment | text s => exact .nil
    | hint code => exact List.nodup_singleton "hintText"
  slot name hname := by
    rw [h.children] at hname
    cases hname

/-- **A widget of a lowered tree names its arguments once** if and only if it does not come from an
element with attributes that clash, provided that no element names an attribute twice. -/
theorem distinctArguments_of_mem_lower (b : Builder) {n : Node}
    (hnames : ∀ m ∈ n.nodes, ∀ el, m.element? = some el → el.attributeNames.Nodup) :
    ∀ w ∈ (b.lower n).1.nodes, (w.DistinctArguments ↔
      ∀ m ∈ n.nodes, ∀ el, m.element? = some el → (lowerElement b.overrides el).value = w →
        ¬ el.Clashes b.overrides) := by
  intro w hw
  have hfits := lowerMarkup_fits b.overrides n w hw
  constructor
  · rintro h m hm el hel rfl
    exact (lowerElement_distinct b.overrides (hnames m hm el hel)).mp h
  · intro h
    cases hsource : w.source with
    | none =>
      rcases hfits.loose hsource with hloose | ⟨ws, -, rfl, -⟩
      · exact .of_loose hloose
      · exact ⟨.nil, fun _ _ => nofun⟩
    | some tag =>
      -- A widget with a source is what an element below the markup became.
      obtain ⟨m, hm, el, hel, -, hmade, -⟩ := hfits.sourced tag hsource
      rw [lowerNode_element hel] at hmade
      obtain rfl : (lowerElement b.overrides el).value = w := List.singleton_inj.mp hmade
      exact (lowerElement_distinct b.overrides (hnames m hm el hel)).mpr (h m hm el hel rfl)

/-- An element is the only one in its tree if there is no other in its attributes and children. -/
theorem Syntax.Node.element_of_mem_nodes {el el' : Element} {m : Node}
    (hplain : ∀ k ∈ Node.nodesOf (el.attributes ++ el.children), k.element? = none)
    (hm : m ∈ (Node.ofElement el).nodes) (h : m.element? = some el') : el' = el := by
  rw [Node.nodesOf_eq_flatMap, List.flatMap_append, ← Node.nodesOf_eq_flatMap,
    ← Node.nodesOf_eq_flatMap] at hplain
  simp only [Node.ofElement, Node.nodes_mk, Node.nodesOf, Node.list, Node.leaf, Node.absent,
    List.append_nil, List.mem_cons, List.mem_append, List.not_mem_nil, or_false] at hm
  -- Besides the attributes and the children there are only the parts that hold them.
  rcases hm with rfl | (rfl | (rfl | hattribute) | rfl) | (rfl | hchild) | rfl
  · exact (Option.some.inj h).symm
  · cases h
  · cases h
  · rw [hplain m (List.mem_append_left _ hattribute)] at h
    cases h
  · cases h
  · cases h
  · rw [hplain m (List.mem_append_right _ hchild)] at h
    cases h
  · cases h

/-- A button with a handler and an identity. -/
theorem distinctArguments_of_mem_lower_button :
    (Builder.lower {} (.ofElement ⟨.simple "button",
      [⟨.attr (.simple "onClick"), 0, [.absent]⟩,
        ⟨.attr (.simple "id"), 0, [.leaf (.quoted "go") 0]⟩], []⟩)).1.DistinctArguments := by
  refine (distinctArguments_of_mem_lower {} ?_ _ (Widget.self_mem_nodes _)).mpr ?_
  · intro m hm el hel
    obtain rfl := Node.element_of_mem_nodes (by decide) hm hel
    decide
  · intro m hm el hel hmade
    obtain rfl := Node.element_of_mem_nodes (by decide) hm hel
    rintro (⟨-, first, second, -, hsub, hcollide⟩ | ⟨hnone, -, -⟩)
    · have hfree : ["onClick", "id"].Pairwise fun first second =>
          ¬ Collide "button" first second := by
        rw [List.pairwise_pair]
        grind [Collide]
      exact List.pairwise_iff_forall_sublist.mp hfree hsub hcollide
    · cases hnone

/-- A key behind an identity is a second argument with the name, though the names of the attributes
are distinct. -/
theorem not_distinctArguments_identity_key :
    (∀ m ∈ (Node.ofElement ⟨.simple "div",
        [⟨.attr (.simple "id"), 0, [.leaf (.quoted "a") 0]⟩,
          ⟨.attr (.simple "key"), 0, [.leaf (.quoted "b") 0]⟩], []⟩).nodes,
      ∀ el, m.element? = some el → el.attributeNames.Nodup) ∧
    ¬ (Builder.lower {} (.ofElement ⟨.simple "div",
      [⟨.attr (.simple "id"), 0, [.leaf (.quoted "a") 0]⟩,
        ⟨.attr (.simple "key"), 0, [.leaf (.quoted "b") 0]⟩], []⟩)).1.DistinctArguments := by
  refine ⟨fun m hm el hel => ?_, fun h => absurd h.nodup (by decide)⟩
  obtain rfl := Node.element_of_mem_nodes (by decide) hm hel
  decide

end JsxWidgets
