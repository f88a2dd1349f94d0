import JsxWidgets.Proofs.Lowering.Untranslated
import JsxWidgets.Proofs.Widget.Nodes

/-!
# Attributes as they are given

An attribute is given with a name and a value, or as a spread (`GivenAttribute`). What the lowering
makes of it is said here in those terms, once for each of the three places where an attribute can
stand: on an element with a row (`lowerAttributes_value`), on a component
(`lowerComponentAttributes_value`), and on a text inside another text
(`lowerNestedAttributes_value`).

In all three places a class attribute becomes a remark and nothing else, and every other attribute
becomes one argument. On an element with a row the arguments in front matter, for `id` gives way to
a key; `ShowsInOrder` says which argument stands for which attribute.
-/

namespace JsxWidgets

open Syntax Expression

/-! ### Given attributes -/

/-- An attribute, or the attributes that an object holds. -/
inductive GivenAttribute where
  /-- An attribute with its name and its value. -/
  | named (name : String) (value : GivenValue)
  /-- All properties of an object. -/
  | spread (e : Node)

namespace GivenAttribute

/-- A node as an attribute. -/
def ofNode? : Node → Option GivenAttribute
  | ⟨.attr name, place, [value]⟩ =>
    some (.named name.text (.ofAttribute ⟨.attr name, place, [value]⟩))
  | ⟨.spread, _, [e]⟩ => some (.spread e)
  | _ => none

/-- A node that is neither shape of attribute is none. -/
theorem ofNode?_eq_none {attr : Node}
    (hattr : ∀ name place value, attr = ⟨.attr name, place, [value]⟩ → False)
    (hspread : ∀ place e, attr = ⟨.spread, place, [e]⟩ → False) : ofNode? attr = none := by
  unfold ofNode?
  split
  · exact absurd rfl (hattr _ _ _)
  · exact absurd rfl (hspread _ _)
  · rfl

/-- An attribute with a name is a node for an attribute with one part. -/
theorem ofNode?_eq_named {attr : Node} {name : String} {value : GivenValue}
    (h : ofNode? attr = some (.named name value)) :
    ∃ attrName place inner, attr = ⟨.attr attrName, place, [inner]⟩ ∧ name = attrName.text
      ∧ GivenValue.ofAttribute attr = value := by
  unfold ofNode? at h
  split at h
  · next attrName place inner =>
    injection h with h
    injection h with hname hvalue
    exact ⟨attrName, place, inner, rfl, hname.symm, hvalue⟩
  · injection h with h
    cases h
  · cases h

/-- Whether it holds class names. -/
def isClass : GivenAttribute → Bool
  | .named name _ => isClassAttribute name
  | .spread _ => false

/-- The class names in it. -/
def classTokens : GivenAttribute → List String
  | .named name value => if isClassAttribute name then value.classTokens else []
  | .spread _ => []

/-- The remark that a class attribute becomes; `mark` says where it stands. -/
def classRemark? (mark : String) : GivenAttribute → Option String
  | .named name value =>
    if isClassAttribute name then some (mark ++ "className: " ++ value.describe) else none
  | .spread _ => none

/-- Only class attributes leave a remark on class names. -/
theorem classRemark?_of_isClass {mark : String} {g : GivenAttribute} (h : g.isClass = false) :
    g.classRemark? mark = none := by
  cases g with
  | named name value => exact if_neg (by simpa [isClass] using h)
  | spread e => rfl

end GivenAttribute

/-- The attributes of an element, in order. -/
def Syntax.Element.given (el : Element) : List GivenAttribute :=
  el.attributes.filterMap GivenAttribute.ofNode?

/-- The argument for the key of an element. -/
def keyProperty (value : GivenValue) : Property :=
  .named "key" (.raw ("ValueKey(" ++ value.code ++ ")"))

/-- A spread leaves its comment. -/
@[simp] theorem lowerSpread_value (target : String) (e : Node) :
    (lowerSpread target e).value = ⟨[spreadComment e], []⟩ := rfl

/-- A spread is reported. -/
@[simp] theorem lowerSpread_notes (target : String) (e : Node) :
    (lowerSpread target e).notes = .reporting [.spread target e] := rfl

/-- A class attribute leaves a remark, and no argument. -/
@[simp] theorem lowerClass_value (mark : String) (value : GivenValue) :
    (lowerClass mark value).value = ⟨[], [mark ++ "className: " ++ value.describe]⟩ := rfl

/-- Its class names are noted. -/
@[simp] theorem lowerClass_notes (mark : String) (value : GivenValue) :
    (lowerClass mark value).notes = { classNames := value.classTokens } :=
  Notes.append_empty _

namespace Additions

/-- The arguments of additions are those of each, in order. -/
@[simp] theorem properties_append (a b : Additions) :
    (a ++ b).properties = a.properties ++ b.properties := rfl

/-- So are the comments. -/
@[simp] theorem comments_append (a b : Additions) :
    (a ++ b).comments = a.comments ++ b.comments := rfl

end Additions

/-! ### What the rules give -/

/-- The names of the arguments that rules give, besides the key. -/
def ruleKeys : List String :=
  ["", "onPressed", "onTap", "onChanged", "onLongPress", "controller", "value", "enabled",
    "restorationId", "obscureText", "keyboardType", "semanticLabel"]

/-- **What a rule can give.** The key of an element comes from its `id` only, and the only widget
in a value is the decoration of a text input. -/
inductive RuleProperty (tag name : String) : Property → Prop
  /-- A comment. -/
  | remark (key text : String) : RuleProperty tag name (.comment key text)
  /-- An argument without a widget in it. -/
  | argument (key : String) (value : Value) :
    key ∈ ruleKeys → value.nodes = [] → RuleProperty tag name (.named key value)
  /-- The key of an element. -/
  | identity (code : String) :
    name = "id" → isTextInput tag = false → RuleProperty tag name (.named "key" (.raw code))
  /-- A hint. -/
  | hint (code : String) :
    RuleProperty tag name (.named "decoration"
      (.widget (.mk "InputDecoration" [.named "hintText" (.raw code)] [] .none none)))

/-- A rule can give code under one of its names. -/
theorem RuleProperty.code {tag name : String} (key code : String) (h : key ∈ ruleKeys) :
    RuleProperty tag name (.named key (.raw code)) :=
  .argument key (.raw code) h (by rw [Value.nodes])

/-- It can give a truth value under one. -/
theorem RuleProperty.flag {tag name : String} (key : String) (b : Bool) (h : key ∈ ruleKeys) :
    RuleProperty tag name (.named key (.flag b)) :=
  .argument key (.flag b) h (by rw [Value.nodes])

/-- A single argument that a rule can give. -/
def Additions.IsRuled (tag name : String) (a : Additions) : Prop :=
  ∃ p, a = .argument p ∧ RuleProperty tag name p

/-- The value of an input is what a rule can give. -/
theorem lowerValue_ruled (tag name : String) (value : GivenValue) :
    (lowerValue tag value).IsRuled tag name := by
  unfold lowerValue
  dsimp only
  split
  · -- the text of an input
    exact ⟨_, rfl, .code "controller" _ (by decide)⟩
  · -- an expression as the text of an input
    exact ⟨_, rfl, .code "controller" _ (by decide)⟩
  · exact ⟨_, rfl, .remark "value" _⟩
  · exact ⟨_, rfl, .code "value" _ (by decide)⟩

/-- So is what disables an element. -/
theorem lowerDisabled_ruled (tag name : String) (value : GivenValue) :
    (lowerDisabled value).IsRuled tag name := by
  unfold lowerDisabled
  split
  · exact ⟨_, rfl, .flag "enabled" _ (by decide)⟩
  · exact ⟨_, rfl, .code "enabled" _ (by decide)⟩
  · exact ⟨_, rfl, .flag "enabled" _ (by decide)⟩

/-- So is the type of an input. -/
theorem lowerInputType?_ruled {tag name type : String} {a : Additions}
    (h : lowerInputType? type = some a) : a.IsRuled tag name := by
  unfold lowerInputType? at h
  split at h <;> cases h
  · exact ⟨_, rfl, .flag "obscureText" true (by decide)⟩
  · exact ⟨_, rfl, .code "keyboardType" _ (by decide)⟩
  · exact ⟨_, rfl, .code "keyboardType" _ (by decide)⟩
  · exact ⟨_, rfl, .code "keyboardType" _ (by decide)⟩
  · exact ⟨_, rfl, .code "keyboardType" _ (by decide)⟩
  · exact ⟨_, rfl, .remark "type" _⟩

/-- **What any rule gives is of these kinds.** -/
theorem attributeRule?_ruled {row : ElementRow} {tag : String} {hasKey : Bool} {name : String}
    {value : GivenValue} {a : Additions} (h : attributeRule? row tag hasKey name value = some a) :
    a.IsRuled tag name := by
  -- Both names that a click can get are among the names of rules.
  have tapKey : (if row.roles.buttonLike then "onPressed" else "onTap") ∈ ruleKeys := by
    split <;> decide
  unfold attributeRule? at h
  split at h
  · -- `onClick`
    cases h; exact ⟨_, rfl, .code _ _ tapKey⟩
  · -- `onPress`
    cases h; exact ⟨_, rfl, .code _ _ tapKey⟩
  · -- `onChange`
    cases h; exact ⟨_, rfl, .code "onChanged" _ (by decide)⟩
  · -- `onChangeText`
    cases h; exact ⟨_, rfl, .code "onChanged" _ (by decide)⟩
  · -- `onLongPress`
    cases h; exact ⟨_, rfl, .code "onLongPress" _ (by decide)⟩
  · -- `value`
    cases h; exact lowerValue_ruled tag "value" value
  · -- `disabled`
    cases h; exact lowerDisabled_ruled tag "disabled" value
  · -- `id`
    split at h
    · cases h; exact ⟨_, rfl, .code "restorationId" _ (by decide)⟩
    next htag =>
      split at h <;> cases h
      exact ⟨_, rfl, .identity _ rfl (by simpa using htag)⟩
  · -- `type`
    split at h
    · exact lowerInputType?_ruled h
    · split at h <;> cases h
      exact ⟨_, rfl, .remark "type" _⟩
  · -- `src`
    split at h <;> cases h
    refine ⟨_, rfl, .argument "" _ (by decide) ?_⟩
    split <;> rw [Value.nodes]
  · -- `alt`
    split at h <;> cases h
    exact ⟨_, rfl, .code "semanticLabel" _ (by decide)⟩
  · -- `href`
    split at h <;> cases h
    exact ⟨_, rfl, .remark "href" _⟩
  · -- `placeholder`
    split at h <;> cases h
    exact ⟨_, rfl, .hint _⟩
  · cases h

/-- The argument that a rule gives is one that rules can give. -/
theorem RuleProperty.of_rule {row : ElementRow} {tag : String} {hasKey : Bool} {name : String}
    {value : GivenValue} {p : Property}
    (h : attributeRule? row tag hasKey name value = some (.argument p)) :
    RuleProperty tag name p := by
  obtain ⟨q, hq, hruled⟩ := attributeRule?_ruled h
  injection hq with hproperties
  injection hproperties with hpq
  subst hpq
  exact hruled

/-! ### One attribute -/

/-- An attribute on an element with a row. -/
theorem lowerAttribute_eq (row : ElementRow) (tag target : String) (hasKey : Bool) (attr : Node) :
    lowerAttribute row tag target hasKey attr =
      match GivenAttribute.ofNode? attr with
      | none => pure {}
      | some (.spread e) => lowerSpread target e
      | some (.named name value) =>
        if isClassAttribute name then lowerClass "" value
        else if name = "key" then pure (keyArgument value)
        else
          match attributeRule? row tag hasKey name value with
          | some additions => pure additions
          | none => do
            Noted.unmapped (Untranslated.unruled tag name value).message
            return unhandled name value := by
  unfold lowerAttribute
  -- the match of the rule is on the node, the one here on what the node gives
  split
  · rfl
  · rfl
  · next hattr hspread => rw [GivenAttribute.ofNode?_eq_none hattr hspread]

/-- An attribute on a text inside another text. -/
theorem lowerNestedAttribute_eq (tag target : String) (attr : Node) :
    lowerNestedAttribute tag target attr =
      match GivenAttribute.ofNode? attr with
      | none => pure {}
      | some (.spread e) => lowerSpread target e
      | some (.named name value) =>
        if isClassAttribute name then lowerClass (nestedMark tag) value
        else do
          Noted.unmapped (Untranslated.merged tag target name value).message
          return unhandled (nestedMark tag ++ name) value := by
  unfold lowerNestedAttribute
  split
  · rfl
  · rfl
  · next hattr hspread => rw [GivenAttribute.ofNode?_eq_none hattr hspread]

/-- The value of an expression is markup if the expression is, wrappers aside. -/
theorem ofExpr_eq_markup {e n : Node} (h : GivenValue.ofExpr e = .markup n) :
    ∃ place, e.unwrap = ⟨.markup, place, [n]⟩ := by
  unfold GivenValue.ofExpr at h
  split at h <;> cases h
  next heq => exact ⟨_, heq⟩

/-- Markup in an attribute stands there as such, or in braces. -/
theorem attributeMarkup_cases {name : AttributeName} {place : Place} {inner n : Node}
    (h : GivenValue.ofAttribute ⟨.attr name, place, [inner]⟩ = .markup n) :
    inner = n ∨ ∃ p e, inner = ⟨.container, p, [e]⟩ ∧ (∀ q parts, e ≠ ⟨.absent, q, parts⟩) ∧
      ∃ p', e.unwrap = ⟨.markup, p', [n]⟩ := by
  unfold GivenValue.ofAttribute Node.attributeValue at h
  dsimp only at h
  -- one case for each kind of value that can stand behind the equals sign
  split at h
  · cases h
  · cases h
  · -- an expression in braces
    next e heq =>
    split at heq <;> cases heq
    next hne =>
      obtain ⟨p', hunwrap⟩ := ofExpr_eq_markup h
      exact Or.inr ⟨_, _, rfl, hne, p', hunwrap⟩
  · cases h
  · -- markup without braces
    next m heq =>
    split at heq <;> cases heq
    cases h
    exact Or.inl rfl

/-- What is the same for a child and what stands for it is the same for what stands behind the
equals sign of an attribute and the markup that the attribute holds. -/
theorem eq_attributeMarkup_of_inner {β : Type} {f : Node → β}
    (hinner : ∀ n e, n.childForm = .inner e → f n = f e) {name : AttributeName} {place : Place}
    {inner n : Node} (h : GivenValue.ofAttribute ⟨.attr name, place, [inner]⟩ = .markup n) :
    f inner = f n := by
  rcases attributeMarkup_cases h with rfl | ⟨p, e, rfl, hform, p', hunwrap⟩
  · rfl
  · have hplain : plainText? e = none := by rw [plainText?, hunwrap]
    have hchild : (Node.mk .container p [e]).childForm = .inner e := by
      rw [Node.childForm]
      · rw [hplain]
      · exact hform
    calc f ⟨.container, p, [e]⟩
        = f e := hinner _ _ hchild
      _ = f ⟨.markup, p', [n]⟩ := by rw [← hunwrap, eq_unwrap_of_inner hinner]
      _ = f n := hinner _ _ rfl

/-- The markup that an attribute holds lies below it. -/
theorem attributeMarkup_below {attr n : Node} {name : String}
    (h : GivenAttribute.ofNode? attr = some (.named name (.markup n))) :
    n ∈ Node.nodesOf attr.parts := by
  obtain ⟨attrName, place, inner, rfl, rfl, hvalue⟩ := GivenAttribute.ofNode?_eq_named h
  have hinner : inner ∈ Node.nodesOf [inner] := Node.mem_nodesOf_of_mem List.mem_cons_self
  rcases attributeMarkup_cases hvalue with rfl | ⟨p, e, rfl, -, p', hunwrap⟩
  · exact hinner
  · -- The markup is inside braces, and there may be parentheses around it.
    have he : e ∈ Node.nodesOf (Node.mk .container p [e]).parts :=
      Node.mem_nodesOf_of_mem List.mem_cons_self
    have hn : n ∈ Node.nodesOf e.unwrap.parts := by
      rw [hunwrap]
      exact Node.mem_nodesOf_of_mem List.mem_cons_self
    have hbelow := Node.nodes_subset e.unwrap_mem_nodes (Node.mem_nodes_iff.mpr (Or.inr hn))
    exact Node.mem_nodesOf.mpr
      ⟨_, List.mem_cons_self, Node.nodes_subset_of_mem_nodesOf he hbelow⟩

/-- An attribute on a component. -/
theorem lowerComponentAttribute_eq (overrides : Overrides) (target : String) (attr : Node) :
    lowerComponentAttribute overrides target attr =
      match GivenAttribute.ofNode? attr with
      | none => pure {}
      | some (.spread e) => lowerSpread target e
      | some (.named name value) =>
        if isClassAttribute name then lowerClass "" value
        else if name = "key" then pure (keyArgument value)
        else
          match value with
          | .markup n =>
            (fun ws => .argument (.named name (.widget (siblings ws)))) <$> lowerNode overrides n
          | other => pure (.argument (.named name (plainArgument name other))) := by
  obtain ⟨form, place, parts⟩ := attr
  unfold lowerComponentAttribute
  split
  · next attrName inner =>
    simp only [GivenAttribute.ofNode?]
    split
    · rfl
    · split
      · rfl
      · -- Markup in braces is lowered from the braces, which changes nothing.
        cases hvalue : GivenValue.ofAttribute ⟨.attr attrName, place, [inner]⟩ with
        | markup n =>
          simp only [eq_attributeMarkup_of_inner (fun _ _ => lowerNode_inner) hvalue]
          rfl
        | standsAlone | text s | expression e => rfl
  · rfl
  · next hattr hspread =>
    rw [GivenAttribute.ofNode?_eq_none]
    · rintro name place value ⟨⟩
      exact hattr _ _ rfl rfl
    · rintro place e ⟨⟩
      exact hspread _ rfl rfl

/-! ### Attributes of an element with a row -/

/-- **Which argument stands for which attribute** on an element with a row. The arguments in front
decide about `id`, which becomes the key only where there is none. -/
inductive Shows (row : ElementRow) (tag : String) (before : List Property) :
    GivenAttribute → Property → Prop
  /-- A spread is named in a comment. -/
  | spread (e : Node) : Shows row tag before (.spread e) (spreadComment e)
  /-- The key is kept. -/
  | key (value : GivenValue) : Shows row tag before (.named "key" value) (keyProperty value)
  /-- An attribute with a rule becomes what the rule says. -/
  | rule (name : String) (value : GivenValue) (p : Property) :
    name ≠ "key" →
    attributeRule? row tag (Widget.hasKey "key" before) name value = some (.argument p) →
    Shows row tag before (.named name value) p
  /-- An attribute without a rule becomes a comment under its name. -/
  | unruled (name : String) (value : GivenValue) :
    name ≠ "key" → attributeRule? row tag (Widget.hasKey "key" before) name value = none →
    Shows row tag before (.named name value) (unhandledComment name value)

/-- One argument for each attribute, in their order, behind the arguments in front. -/
inductive ShowsInOrder (row : ElementRow) (tag : String) :
    List Property → List GivenAttribute → List Property → Prop
  /-- No attributes, no arguments. -/
  | nil (before : List Property) : ShowsInOrder row tag before [] []
  /-- The first argument is the one for the first attribute. -/
  | cons {before : List Property} {g : GivenAttribute} {p : Property} {gs : List GivenAttribute}
    {ps : List Property} :
    Shows row tag before g p → ShowsInOrder row tag (before ++ [p]) gs ps →
    ShowsInOrder row tag before (g :: gs) (p :: ps)

/-- An argument among those shown stands for one of the attributes. -/
theorem ShowsInOrder.exists_shows {row : ElementRow} {tag : String} {before : List Property}
    {gs : List GivenAttribute} {ps : List Property} (h : ShowsInOrder row tag before gs ps)
    {p : Property} (hp : p ∈ ps) : ∃ before, ∃ g ∈ gs, Shows row tag before g p := by
  induction h with
  | nil before => cases hp
  | cons hshows _ ih =>
    rcases List.mem_cons.mp hp with rfl | hrest
    · exact ⟨_, _, List.mem_cons_self, hshows⟩
    · obtain ⟨before, g, hg, hshows⟩ := ih hrest
      exact ⟨before, g, List.mem_cons_of_mem _ hg, hshows⟩

/-- Every attribute is shown. -/
theorem ShowsInOrder.exists_mem {row : ElementRow} {tag : String} {before : List Property}
    {gs : List GivenAttribute} {ps : List Property} (h : ShowsInOrder row tag before gs ps)
    {g : GivenAttribute} (hg : g ∈ gs) : ∃ before, ∃ p ∈ ps, Shows row tag before g p := by
  induction h with
  | nil before => cases hg
  | cons hshows _ ih =>
    rcases List.mem_cons.mp hg with rfl | hrest
    · exact ⟨_, _, List.mem_cons_self, hshows⟩
    · obtain ⟨before, p, hp, hshows⟩ := ih hrest
      exact ⟨before, p, List.mem_cons_of_mem _ hp, hshows⟩

/-- An attribute without a rule is shown as a comment under its name. -/
theorem Shows.eq_unhandled {row : ElementRow} {tag : String} {before : List Property}
    {name : String} {value : GivenValue} {p : Property}
    (h : Shows row tag before (.named name value) p) (hkey : name ≠ "key")
    (hrule : ∀ keyed, attributeRule? row tag keyed name value = none) :
    p = unhandledComment name value := by
  cases h with
  | key => exact absurd rfl hkey
  | unruled => rfl
  | rule _ _ _ _ hsome =>
    rw [hrule] at hsome
    cases hsome

/-- One attribute adds a remark if it holds class names, and else one argument. -/
theorem lowerAttribute_value (row : ElementRow) (tag target : String) (before : List Property)
    {attr : Node} {g : GivenAttribute} (hattr : GivenAttribute.ofNode? attr = some g) :
    let added := (lowerAttribute row tag target (Widget.hasKey "key" before) attr).value
    (g.isClass = true ∧ added = ⟨[], (g.classRemark? "").toList⟩) ∨
      (g.isClass = false ∧ ∃ p, Shows row tag before g p ∧ added = ⟨[p], []⟩) := by
  rw [lowerAttribute_eq, hattr]
  cases g with
  | spread e => exact Or.inr ⟨rfl, _, .spread e, rfl⟩
  | named name value =>
    simp only [GivenAttribute.isClass, GivenAttribute.classRemark?]
    split
    · next hclass => exact Or.inl ⟨hclass, rfl⟩
    · next hclass =>
      refine Or.inr ⟨by simpa using hclass, ?_⟩
      split
      · next hkey =>
        subst hkey
        exact ⟨_, .key value, rfl⟩
      · -- The rules decide, and each of them gives exactly one argument.
        next hkey =>
        cases hrule : attributeRule? row tag (Widget.hasKey "key" before) name value with
        | some additions =>
          obtain ⟨p, rfl, -⟩ := attributeRule?_ruled hrule
          exact ⟨p, .rule name value p hkey hrule, rfl⟩
        | none => exact ⟨_, .unruled name value hkey hrule, rfl⟩

/-- **The attributes of an element with a row** become one argument each, in order; those with class
names become remarks. -/
theorem lowerAttributes_value (row : ElementRow) (tag target : String) (attrs : List Node)
    (before : Additions) :
    ∃ shown,
      ShowsInOrder row tag before.properties
        ((attrs.filterMap GivenAttribute.ofNode?).filter (!·.isClass)) shown ∧
      (lowerAttributes row tag target attrs before).value =
        ⟨before.properties ++ shown, before.comments
          ++ (attrs.filterMap GivenAttribute.ofNode?).filterMap (·.classRemark? "")⟩ := by
  -- What is in front grows from attribute to attribute, since the key that is set first counts.
  induction attrs generalizing before with
  | nil => exact ⟨[], .nil _, by simp [lowerAttributes]⟩
  | cons attr attrs ih =>
    rw [lowerAttributes, Noted.value_bind]
    cases hattr : GivenAttribute.ofNode? attr with
    | none =>
      have hempty : before ++ (lowerAttribute row tag target
          (Widget.hasKey "key" before.properties) attr).value = before := by
        rw [lowerAttribute_eq, hattr]
        exact congr (congrArg Additions.mk (List.append_nil _)) (List.append_nil _)
      rw [hempty, List.filterMap_cons_none hattr]
      exact ih before
    | some g =>
      obtain ⟨shown, hshown, hvalue⟩ := ih (before ++ (lowerAttribute row tag target
        (Widget.hasKey "key" before.properties) attr).value)
      rw [hvalue, List.filterMap_cons_some hattr]
      rcases lowerAttribute_value row tag target before.properties hattr with
        ⟨hclass, hadded⟩ | ⟨hclass, p, hp, hadded⟩
      · -- Class names add a remark, and no argument.
        refine ⟨shown, ?_, ?_⟩
        · simpa [hadded, hclass] using hshown
        · simp only [hadded, Additions.properties_append, Additions.comments_append,
            List.append_nil, List.filterMap_cons, List.append_assoc]
          cases g.classRemark? "" <;> rfl
      · -- The argument goes in front of those of the attributes behind.
        refine ⟨p :: shown, ?_, ?_⟩
        · rw [List.filter_cons_of_pos (by simp [hclass])]
          refine .cons hp ?_
          simpa [hadded] using hshown
        · simp [hadded, GivenAttribute.classRemark?_of_isClass hclass]

/-- What is not translated of an attribute on an element with a row: a spread, and an attribute
without a rule. -/
def attributeUntranslated? (row : ElementRow) (tag target : String) (keyed : Bool) :
    GivenAttribute → Option Untranslated
  | .spread e => some (.spread target e)
  | .named name value =>
    if isClassAttribute name || name = "key" then none
    else if (attributeRule? row tag keyed name value).isNone then some (.unruled tag name value)
    else none

/-- Whether there is a key behind an attribute if there was none in front of it. -/
def setsKey (tag : String) : GivenAttribute → Bool
  | .spread _ => false
  | .named name _ => name = "key" || (name = "id" && !isTextInput tag)

/-- What is not translated of several attributes, in order. -/
def attributesUntranslated (row : ElementRow) (tag target : String) :
    Bool → List GivenAttribute → List Untranslated
  | _, [] => []
  | keyed, g :: gs =>
    (attributeUntranslated? row tag target keyed g).toList
      ++ attributesUntranslated row tag target (keyed || setsKey tag g) gs

/-- **What is noted for an attribute**: its class names, and a report if it is not translated. -/
theorem lowerAttribute_notes (row : ElementRow) (tag target : String) (keyed : Bool) {attr : Node}
    {g : GivenAttribute} (hattr : GivenAttribute.ofNode? attr = some g) :
    (lowerAttribute row tag target keyed attr).notes =
      { classNames := g.classTokens
        diagnostics :=
          (attributeUntranslated? row tag target keyed g).toList.map (·.diagnostic) } := by
  rw [lowerAttribute_eq, hattr]
  cases g with
  | spread e => rfl
  | named name value =>
    simp only [attributeUntranslated?, GivenAttribute.classTokens]
    -- the rule is chosen by name: the class first, then the key, then the table
    by_cases hclass : isClassAttribute name = true
    · rw [if_pos hclass, if_pos hclass, hclass, Bool.true_or, if_pos rfl]
      exact lowerClass_notes "" value
    · rw [if_neg hclass, if_neg hclass]
      by_cases hkey : name = "key"
      · simp only [hkey, if_true, decide_true, Bool.or_true]
        rfl
      · simp only [hkey, if_false, decide_false, Bool.or_false, hclass]
        cases attributeRule? row tag keyed name value with
        | some additions => rfl
        | none => rfl

/-- A key is among arguments if it is in front or behind. -/
theorem hasKey_append (key : String) (ps qs : List Property) :
    Widget.hasKey key (ps ++ qs) = (Widget.hasKey key ps || Widget.hasKey key qs) :=
  List.any_append

/-- What a rule gives is the key of the element only if it is the rule for `id`. -/
theorem RuleProperty.hasKey {tag name : String} {p : Property} (h : RuleProperty tag name p)
    (hkey : Widget.hasKey "key" [p] = true) : name = "id" ∧ isTextInput tag = false := by
  cases h with
  | remark key text => cases hkey
  | argument key value hmem hnodes =>
    have hne : ∀ k ∈ ruleKeys, Widget.hasKey "key" [.named k value] = false := by
      intro k hk
      have hk' : k ≠ "key" := by
        rintro rfl
        exact absurd hk (by decide)
      simp [Widget.hasKey, Property.named, Property.key, hk']
    rw [hne key hmem] at hkey
    cases hkey
  | identity code hname htag => exact ⟨hname, htag⟩
  | hint code => cases hkey

/-- The rule for `id` gives the key of an element that has none and is no text input. -/
theorem attributeRule?_id (row : ElementRow) {tag : String} (htag : isTextInput tag = false)
    (value : GivenValue) :
    attributeRule? row tag false "id" value
      = some (.argument (.named "key" (.raw ("Key(" ++ value.code ++ ")")))) := by
  simp [attributeRule?, htag, Additions.code]

/-- An argument is the first key of an element if its attribute sets the key. -/
theorem Shows.hasKey {row : ElementRow} {tag : String} {before : List Property}
    {g : GivenAttribute} {p : Property} (h : Shows row tag before g p)
    (hbefore : Widget.hasKey "key" before = false) :
    Widget.hasKey "key" [p] = setsKey tag g := by
  cases h with
  | spread e => rfl
  | key value => rfl
  | rule name value p hkey hrule =>
    rw [setsKey, decide_eq_false hkey, Bool.false_or, Bool.eq_iff_iff, Bool.and_eq_true,
      decide_eq_true_iff, Bool.not_eq_true']
    rw [hbefore] at hrule
    constructor
    · exact (RuleProperty.of_rule hrule).hasKey
    · -- The rule for `id` is known, and so is what it gives.
      rintro ⟨rfl, htag⟩
      rw [attributeRule?_id row htag value] at hrule
      injection hrule with hrule
      injection hrule with hrule
      injection hrule with hrule
      subst hrule
      rfl
  | unruled name value hkey hrule =>
    show false = _
    rw [setsKey, decide_eq_false hkey, Bool.false_or, eq_comm, Bool.and_eq_false_iff]
    rw [hbefore] at hrule
    by_cases hid : name = "id"
    · -- There is a rule for `id` as long as there is no key, but on a text input.
      subst hid
      refine Or.inr ?_
      cases htag : isTextInput tag with
      | true => rfl
      | false =>
        rw [attributeRule?_id row htag value] at hrule
        cases hrule
    · exact Or.inl (decide_eq_false hid)

/-- A class attribute is never the key. -/
theorem setsKey_of_isClass {tag : String} {g : GivenAttribute} (h : g.isClass = true) :
    setsKey tag g = false := by
  cases g with
  | spread e => rfl
  | named name value =>
    have hname : name = "className" ∨ name = "class" := by
      simpa [GivenAttribute.isClass, isClassAttribute] using h
    rcases hname with rfl | rfl <;> rfl

/-- Whether there is a key behind an attribute. -/
theorem lowerAttribute_keyed (row : ElementRow) (tag target : String) (before : List Property)
    {attr : Node} {g : GivenAttribute} (hattr : GivenAttribute.ofNode? attr = some g) :
    Widget.hasKey "key" (before
      ++ (lowerAttribute row tag target (Widget.hasKey "key" before) attr).value.properties) =
    (Widget.hasKey "key" before || setsKey tag g) := by
  rw [hasKey_append]
  rcases lowerAttribute_value row tag target before hattr with
    ⟨hclass, hadded⟩ | ⟨-, p, hp, hadded⟩
  · rw [hadded, setsKey_of_isClass hclass]
    rfl
  · -- Only where there is no key yet does it matter whether the argument is one.
    rw [hadded]
    cases hbefore : Widget.hasKey "key" before with
    | true => rw [Bool.true_or, Bool.true_or]
    | false => rw [Bool.false_or, Bool.false_or, hp.hasKey hbefore]

/-- What is noted for the attributes of an element is noted for each, in order, the key being looked
for in front. -/
theorem lowerAttributes_notes (row : ElementRow) (tag target : String) (attrs : List Node)
    (before : Additions) :
    (lowerAttributes row tag target attrs before).notes =
      { classNames := (attrs.filterMap GivenAttribute.ofNode?).flatMap (·.classTokens)
        diagnostics := (attributesUntranslated row tag target
          (Widget.hasKey "key" before.properties)
          (attrs.filterMap GivenAttribute.ofNode?)).map (·.diagnostic) } := by
  induction attrs generalizing before with
  | nil => rfl
  | cons attr attrs ih =>
    rw [lowerAttributes, Noted.notes_bind, ih]
    -- a node that gives no attribute adds nothing and is passed over on both sides
    cases hattr : GivenAttribute.ofNode? attr with
    | none =>
      have hempty : lowerAttribute row tag target (Widget.hasKey "key" before.properties) attr
          = pure {} := by
        rw [lowerAttribute_eq, hattr]
      rw [hempty, List.filterMap_cons_none hattr, Noted.value_pure, Additions.properties_append,
        List.append_nil]
      rfl
    | some g =>
      rw [Additions.properties_append, lowerAttribute_keyed row tag target before.properties hattr,
        lowerAttribute_notes row tag target _ hattr, List.filterMap_cons_some hattr,
        List.flatMap_cons, attributesUntranslated, List.map_append]
      rfl

/-! ### Attributes of a component -/

/-- The value that an attribute of a component becomes: markup becomes a widget. -/
def componentValue (overrides : Overrides) (name : String) : GivenValue → Value
  | .markup n => .widget (siblings (lowerNode overrides n).value)
  | other => plainArgument name other

/-- The argument that an attribute of a component becomes, under the name of the attribute. -/
def componentProperty (overrides : Overrides) : GivenAttribute → Property
  | .spread e => spreadComment e
  | .named name value =>
    if name = "key" then keyProperty value
    else .named name (componentValue overrides name value)

/-- What is noted for an attribute of a component. -/
def componentNotes (overrides : Overrides) (target : String) : GivenAttribute → Notes
  | .spread e => .reporting [.spread target e]
  | .named name value =>
    if isClassAttribute name then { classNames := value.classTokens }
    else if name = "key" then {}
    else
      match value with
      | .markup n => (lowerNode overrides n).notes
      | _ => {}

/-- One attribute of a component adds a remark if it holds class names, and else one argument. -/
theorem lowerComponentAttribute_of {overrides : Overrides} {target : String} {attr : Node}
    {g : GivenAttribute} (hattr : GivenAttribute.ofNode? attr = some g) :
    (lowerComponentAttribute overrides target attr).value
        = (if g.isClass then ⟨[], (g.classRemark? "").toList⟩
          else ⟨[componentProperty overrides g], []⟩) ∧
      (lowerComponentAttribute overrides target attr).notes
        = componentNotes overrides target g := by
  rw [lowerComponentAttribute_eq, hattr]
  cases g with
  | spread e => exact ⟨rfl, rfl⟩
  | named name value =>
    simp only [GivenAttribute.isClass, GivenAttribute.classRemark?, componentProperty,
      componentNotes]
    split
    · exact ⟨rfl, lowerClass_notes "" value⟩
    · split
      · exact ⟨rfl, rfl⟩
      -- only markup is lowered itself, so only there are notes passed on
      · cases value with
        | markup n => exact ⟨rfl, Noted.notes_map _ _⟩
        | standsAlone | text s | expression e => exact ⟨rfl, rfl⟩

/-- **The attributes of a component** become one argument each, in order; those with class names
become remarks. -/
theorem lowerComponentAttributes_value (overrides : Overrides) (target : String)
    (attrs : List Node) :
    (lowerComponentAttributes overrides target attrs).value =
      ⟨((attrs.filterMap GivenAttribute.ofNode?).filter (!·.isClass)).map
          (componentProperty overrides),
        (attrs.filterMap GivenAttribute.ofNode?).filterMap (·.classRemark? "")⟩ := by
  induction attrs with
  | nil => rfl
  | cons attr attrs ih =>
    rw [lowerComponentAttributes, Noted.value_bind, Noted.value_bind, Noted.value_pure, ih]
    cases hattr : GivenAttribute.ofNode? attr with
    | none =>
      rw [lowerComponentAttribute_eq, hattr, List.filterMap_cons_none hattr]
      rfl
    | some g =>
      rw [(lowerComponentAttribute_of hattr).1, List.filterMap_cons_some hattr]
      -- a class gives a remark at most, every other attribute an argument
      cases hclass : g.isClass with
      | true =>
        simp only [if_true, List.filter_cons, hclass, List.filterMap_cons]
        cases g.classRemark? "" <;> rfl
      | false =>
        rw [List.filter_cons_of_pos (by simp [hclass]), List.map_cons, List.filterMap_cons_none
          (GivenAttribute.classRemark?_of_isClass hclass)]
        rfl

/-- What is noted for those of a component is noted for each. -/
theorem lowerComponentAttributes_notes (overrides : Overrides) (target : String)
    (attrs : List Node) :
    (lowerComponentAttributes overrides target attrs).notes =
      .join ((attrs.filterMap GivenAttribute.ofNode?).map (componentNotes overrides target)) := by
  induction attrs with
  | nil => rfl
  | cons attr attrs ih =>
    rw [lowerComponentAttributes, Noted.notes_bind, Noted.notes_bind, Noted.notes_pure,
      Notes.append_empty, ih]
    cases hattr : GivenAttribute.ofNode? attr with
    | none =>
      rw [lowerComponentAttribute_eq, hattr, List.filterMap_cons_none hattr]
      rfl
    | some g =>
      rw [(lowerComponentAttribute_of hattr).2, List.filterMap_cons_some hattr, List.map_cons,
        Notes.join_cons]

/-! ### Attributes inside a text -/

/-- The comment that an attribute of an element inside a text becomes, unless it holds class
names. -/
def nestedComment? (tag : String) : GivenAttribute → Option Property
  | .spread e => some (spreadComment e)
  | .named name value =>
    if isClassAttribute name then none else some (unhandledComment (nestedMark tag ++ name) value)

/-- Inside a text an attribute becomes a comment. -/
theorem nestedComment?_eq {tag : String} {g : GivenAttribute} {p : Property}
    (h : nestedComment? tag g = some p) : ∃ key text, p = .comment key text := by
  cases g with
  | spread e =>
    cases h
    exact ⟨_, _, rfl⟩
  | named name value =>
    rw [nestedComment?] at h
    split at h <;> cases h
    exact ⟨_, _, rfl⟩

/-- What is not translated of an attribute of an element inside a text: all but class names. -/
def nestedUntranslated? (tag target : String) : GivenAttribute → Option Untranslated
  | .spread e => some (.spread target e)
  | .named name value =>
    if isClassAttribute name then none else some (.merged tag target name value)

/-- One attribute inside a text adds a remark if it holds class names, and else one comment. -/
theorem lowerNestedAttribute_of {tag target : String} {attr : Node} {g : GivenAttribute}
    (hattr : GivenAttribute.ofNode? attr = some g) :
    (lowerNestedAttribute tag target attr).value =
        ⟨(nestedComment? tag g).toList, (g.classRemark? (nestedMark tag)).toList⟩ ∧
      (lowerNestedAttribute tag target attr).notes =
        { classNames := g.classTokens
          diagnostics := (nestedUntranslated? tag target g).toList.map (·.diagnostic) } := by
  rw [lowerNestedAttribute_eq, hattr]
  cases g with
  | spread e => exact ⟨rfl, rfl⟩
  | named name value =>
    simp only [nestedComment?, nestedUntranslated?, GivenAttribute.classRemark?,
      GivenAttribute.classTokens]
    split
    · exact ⟨rfl, lowerClass_notes _ value⟩
    · exact ⟨rfl, rfl⟩

/-- **The attributes of an element inside a text** become one comment each, in order; those with
class names become remarks. -/
theorem lowerNestedAttributes_value (tag target : String) (attrs : List Node) :
    (lowerNestedAttributes tag target attrs).value =
      ⟨(attrs.filterMap GivenAttribute.ofNode?).filterMap (nestedComment? tag),
        (attrs.filterMap GivenAttribute.ofNode?).filterMap (·.classRemark? (nestedMark tag))⟩ := by
  induction attrs with
  | nil => rfl
  | cons attr attrs ih =>
    rw [lowerNestedAttributes, Noted.value_bind, Noted.value_bind, Noted.value_pure, ih]
    cases hattr : GivenAttribute.ofNode? attr with
    | none =>
      rw [lowerNestedAttribute_eq, hattr, List.filterMap_cons_none hattr]
      rfl
    | some g =>
      rw [(lowerNestedAttribute_of hattr).1, List.filterMap_cons_some hattr, List.filterMap_cons,
        List.filterMap_cons]
      cases nestedComment? tag g <;> cases g.classRemark? (nestedMark tag) <;> rfl

/-- There too, the class names and the reports of all are noted in order. -/
theorem lowerNestedAttributes_notes (tag target : String) (attrs : List Node) :
    (lowerNestedAttributes tag target attrs).notes =
      { classNames := (attrs.filterMap GivenAttribute.ofNode?).flatMap (·.classTokens)
        diagnostics := ((attrs.filterMap GivenAttribute.ofNode?).filterMap
          (nestedUntranslated? tag target)).map (·.diagnostic) } := by
  induction attrs with
  | nil => rfl
  | cons attr attrs ih =>
    rw [lowerNestedAttributes, Noted.notes_bind, Noted.notes_bind, Noted.notes_pure,
      Notes.append_empty, ih]
    -- a node that gives no attribute adds nothing and is passed over on both sides
    cases hattr : GivenAttribute.ofNode? attr with
    | none =>
      rw [lowerNestedAttribute_eq, hattr, List.filterMap_cons_none hattr]
      rfl
    | some g =>
      rw [(lowerNestedAttribute_of hattr).2, List.filterMap_cons_some hattr, List.flatMap_cons,
        List.filterMap_cons]
      cases nestedUntranslated? tag target g <;> rfl

end JsxWidgets
