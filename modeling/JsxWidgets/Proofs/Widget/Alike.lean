import JsxWidgets.Proofs.Lowering.Untranslated
import JsxWidgets.Proofs.Widget.Nodes
import Mathlib.Data.List.Forall2

/-!
# Trees alike but for their tags

Two lists of overrides give an element two widgets that should differ in their tags only.
`Widget.Alike` says so of whole trees: the same arguments, comments and children, made from the same
elements, with the tags that the two lists give (`Retargets`). The tag of a widget is also quoted in
the comment that tells of something dropped (`RemarkAlike`).

`Noted.Alike` compares two results with notes in the same way. Class names and components are the
same, and the diagnostics are of the same kinds, one for one. It goes through sequences of steps, so
two runs of the lowering are compared step by step.
-/

namespace JsxWidgets

open Syntax

/-! ### Tags -/

/-- The tag that a user wants for the widget of an element. -/
def Overrides.wanted? (overrides : Overrides) (tag : String) : Option String :=
  (overrides.find? (·.1 = tag)).map (·.2)

/-- **The tags that two lists of overrides give to a widget**, by what it is made from. Only rows of
the table can be overridden: a component has its own name, and an unknown element the tag of the row
for unknown elements, whatever the lists say. -/
inductive Retargets (o₁ o₂ : Overrides) : Option String → String → String → Prop
  /-- A widget that is made from no element. -/
  | made (tag : String) : Retargets o₁ o₂ none tag tag
  /-- An element with a row: the tag that is wanted, or else that of the row. -/
  | row {tag : String} {row : ElementRow} (hrow : ElementRow.find? tag = some row) :
    Retargets o₁ o₂ (some tag) ((o₁.wanted? tag).getD row.target) ((o₂.wanted? tag).getD row.target)
  /-- A component. -/
  | component {tag : TagName} (hrow : ElementRow.find? tag.text = none)
    (hcustom : tag.isCustom = true) : Retargets o₁ o₂ (some tag.text) tag.text tag.text
  /-- An element that is neither. -/
  | unknown {tag : TagName} (hrow : ElementRow.find? tag.text = none)
    (hcustom : tag.isCustom = false) :
    Retargets o₁ o₂ (some tag.text) ElementRow.fallback.target ElementRow.fallback.target

/-- **Comments of two widgets with the given tags**: they are the same, or both tell of the same
thing dropped, and each quotes the tag of its widget. The texts alone would not tell, since class
names may read like such a comment. -/
inductive RemarkAlike (tag₁ tag₂ : String) : String → String → Prop
  /-- The same comment. -/
  | same (text : String) : RemarkAlike tag₁ tag₂ text text
  /-- Children without a slot. -/
  | children (count : Nat) :
    RemarkAlike tag₁ tag₂ (droppedMessage count tag₁) (droppedMessage count tag₂)
  /-- An element inside a text. -/
  | element (tag : String) :
    RemarkAlike tag₁ tag₂ (Untranslated.elementInText tag tag₁).message
      (Untranslated.elementInText tag tag₂).message

/-! ### Trees -/

mutual

/-- **Widgets alike but for their tags.** -/
inductive Widget.Alike (o₁ o₂ : Overrides) : Widget → Widget → Prop
  /-- They are made from the same element, and everything in them is alike. -/
  | mk {tag₁ tag₂ : String} {properties₁ properties₂ : List Property}
    {comments₁ comments₂ : List String} {children₁ children₂ : Children} {source : Option String}
    (htags : Retargets o₁ o₂ source tag₁ tag₂)
    (hproperties : List.Forall₂ (Property.Alike o₁ o₂) properties₁ properties₂)
    (hcomments : List.Forall₂ (RemarkAlike tag₁ tag₂) comments₁ comments₂)
    (hchildren : Children.Alike o₁ o₂ children₁ children₂) :
    Widget.Alike o₁ o₂ (.mk tag₁ properties₁ comments₁ children₁ source)
      (.mk tag₂ properties₂ comments₂ children₂ source)

/-- Arguments alike but for tags in their values. -/
inductive Property.Alike (o₁ o₂ : Overrides) : Property → Property → Prop
  /-- They have the same name, and both are comments or none is. -/
  | mk {key : String} {value₁ value₂ : Value} {isComment : Bool}
    (hvalue : Value.Alike o₁ o₂ value₁ value₂) :
    Property.Alike o₁ o₂ (.mk key value₁ isComment) (.mk key value₂ isComment)

/-- Values alike but for tags in them. -/
inductive Value.Alike (o₁ o₂ : Overrides) : Value → Value → Prop
  /-- The same code. -/
  | raw (code : String) : Value.Alike o₁ o₂ (.raw code) (.raw code)
  /-- The same text. -/
  | text (s : String) : Value.Alike o₁ o₂ (.text s) (.text s)
  /-- The same truth value. -/
  | flag (b : Bool) : Value.Alike o₁ o₂ (.flag b) (.flag b)
  /-- Widgets alike. -/
  | widget {w₁ w₂ : Widget} (hwidget : Widget.Alike o₁ o₂ w₁ w₂) :
    Value.Alike o₁ o₂ (.widget w₁) (.widget w₂)
  /-- Lists of values alike. -/
  | list {vs₁ vs₂ : List Value} (hvalues : List.Forall₂ (Value.Alike o₁ o₂) vs₁ vs₂) :
    Value.Alike o₁ o₂ (.list vs₁) (.list vs₂)

/-- Children alike but for their tags, in the same slot. -/
inductive Children.Alike (o₁ o₂ : Overrides) : Children → Children → Prop
  /-- No children. -/
  | none : Children.Alike o₁ o₂ .none .none
  /-- One child. -/
  | single {slot : String} {w₁ w₂ : Widget} (hwidget : Widget.Alike o₁ o₂ w₁ w₂) :
    Children.Alike o₁ o₂ (.single slot w₁) (.single slot w₂)
  /-- A collection, child by child. -/
  | many {slot : String} {ws₁ ws₂ : List Widget}
    (hwidgets : List.Forall₂ (Widget.Alike o₁ o₂) ws₁ ws₂) :
    Children.Alike o₁ o₂ (.many slot ws₁) (.many slot ws₂)

end

/-- Several widgets alike, one by one. -/
abbrev Widget.AllAlike (o₁ o₂ : Overrides) : List Widget → List Widget → Prop :=
  List.Forall₂ (Widget.Alike o₁ o₂)

section Trees

variable {o₁ o₂ : Overrides}

/-- The same comments are alike whatever the tags are. -/
theorem RemarkAlike.refl {tag₁ tag₂ : String} (comments : List String) :
    List.Forall₂ (RemarkAlike tag₁ tag₂) comments comments :=
  List.forall₂_same.mpr fun text _ => .same text

mutual

/-- A value without widgets is like itself. -/
theorem Value.alike_self (v : Value) (h : v.nodes = []) : v.Alike o₁ o₂ v := by
  match v, h with
  | .raw code, _ => exact .raw code
  | .text s, _ => exact .text s
  | .flag b, _ => exact .flag b
  | .widget w, h =>
    rw [Value.nodes] at h
    exact absurd w.self_mem_nodes (by rw [h]; exact List.not_mem_nil)
  | .list vs, h =>
    rw [Value.nodes] at h
    exact .list (Value.alike_self_of_mem vs h)

theorem Value.alike_self_of_mem (vs : List Value) (h : Value.nodesOf vs = []) :
    List.Forall₂ (Value.Alike o₁ o₂) vs vs := by
  match vs, h with
  | [], _ => exact .nil
  | v :: vs, h =>
    rw [Value.nodesOf, List.append_eq_nil_iff] at h
    exact .cons (Value.alike_self v h.1) (Value.alike_self_of_mem vs h.2)

end

/-- Comments in the place of arguments are texts, so each is like itself. -/
theorem Property.alike_comment (key text : String) :
    (Property.comment key text).Alike o₁ o₂ (.comment key text) := .mk (.raw text)

theorem Property.alike_code (key code : String) :
    (Property.named key (.raw code)).Alike o₁ o₂ (.named key (.raw code)) := .mk (.raw code)

/-- A widget that is made from no element and holds no widget is like itself. -/
theorem Widget.alike_leaf (tag : String) {properties : List Property} (comments : List String)
    (h : List.Forall₂ (Property.Alike o₁ o₂) properties properties) :
    (Widget.mk tag properties comments .none none).Alike o₁ o₂
      (.mk tag properties comments .none none) :=
  .mk (.made tag) h (RemarkAlike.refl comments) .none

theorem Widget.alike_ofText (text : String) : (ofText text).Alike o₁ o₂ (ofText text) :=
  alike_leaf "Text" [] (.cons (.mk (.text text)) .nil)

theorem Widget.alike_placeholder (comment : String) :
    (placeholder comment).Alike o₁ o₂ (placeholder comment) :=
  alike_leaf "Placeholder" [comment] .nil

theorem Widget.alike_empty : Widget.empty.Alike o₁ o₂ .empty := alike_leaf "" [] .nil

theorem Widget.alike_column {ws₁ ws₂ : List Widget}
    (h : Widget.AllAlike o₁ o₂ ws₁ ws₂) : (column ws₁).Alike o₁ o₂ (column ws₂) :=
  .mk (.made "Column") .nil .nil (.many h)

/-- Several widgets that stand side by side. -/
theorem siblings_alike {ws₁ ws₂ : List Widget} (h : Widget.AllAlike o₁ o₂ ws₁ ws₂) :
    (siblings ws₁).Alike o₁ o₂ (siblings ws₂) := by
  cases h with
  | nil => exact Widget.alike_empty
  | cons hw hws =>
    cases hws with
    | nil => exact hw
    | cons hw' hws => exact Widget.alike_column (.cons hw (.cons hw' hws))

/-- Children are placed in a slot by their number only. -/
theorem Slot.place_alike (slot : Slot) {ws₁ ws₂ : List Widget}
    (h : Widget.AllAlike o₁ o₂ ws₁ ws₂) :
    (slot.place ws₁).Alike o₁ o₂ (slot.place ws₂) := by
  cases slot with
  | none => exact .none
  | single name =>
    cases h with
    | nil => exact .none
    | cons hw hws =>
      cases hws with
      | nil => exact .single hw
      | cons hw' hws => exact .single (Widget.alike_column (.cons hw (.cons hw' hws)))
  | many name =>
    cases h with
    | nil => exact .none
    | cons hw hws => exact .many (.cons hw hws)

end Trees

/-! ### Results with notes -/

/-- Notes that say the same but for the wording of their diagnostics. -/
structure Notes.Alike (m n : Notes) : Prop where
  /-- The class names are the same. -/
  classNames : m.classNames = n.classNames
  /-- The components are the same. -/
  components : m.components = n.components
  /-- The diagnostics are of the same kinds, one for one. -/
  kinds : m.diagnostics.map (·.kind) = n.diagnostics.map (·.kind)

namespace Notes

theorem Alike.refl (n : Notes) : n.Alike n := ⟨rfl, rfl, rfl⟩

theorem Alike.append {m n m' n' : Notes} (h : m.Alike n) (h' : m'.Alike n') :
    (m ++ m').Alike (n ++ n') where
  classNames := by rw [classNames_append, classNames_append, h.classNames, h'.classNames]
  components := by rw [components_append, components_append, h.components, h'.components]
  kinds := by rw [diagnostics_append, diagnostics_append, List.map_append, List.map_append, h.kinds,
    h'.kinds]

end Notes

namespace Noted

variable {α β γ δ : Type}

/-- **Results alike**: the values are related, and the notes say the same. -/
structure Alike (R : α → β → Prop) (x : Noted α) (y : Noted β) : Prop where
  /-- The values are related. -/
  value : R x.value y.value
  /-- The notes say the same. -/
  notes : x.notes.Alike y.notes

variable {R : α → β → Prop} {S : γ → δ → Prop} {x : Noted α} {y : Noted β}

/-- A result is like itself if its value is. -/
theorem Alike.refl {R : α → α → Prop} {x : Noted α} (h : R x.value x.value) : x.Alike R x :=
  ⟨h, .refl x.notes⟩

theorem Alike.pure {a : α} {b : β} (h : R a b) : (Pure.pure a : Noted α).Alike R (Pure.pure b) :=
  ⟨h, .refl {}⟩

/-- Steps are compared one after the other. -/
theorem Alike.bind {f : α → Noted γ} {g : β → Noted δ} (h : x.Alike R y)
    (hnext : ∀ a b, R a b → (f a).Alike S (g b)) : (x >>= f).Alike S (y >>= g) where
  value := (hnext _ _ h.value).value
  notes := h.notes.append (hnext _ _ h.value).notes

theorem Alike.map {f : α → γ} {g : β → δ} (h : x.Alike R y) (hmap : ∀ a b, R a b → S (f a) (g b)) :
    (f <$> x).Alike S (g <$> y) := by
  rw [map_eq_pure_bind, map_eq_pure_bind]
  exact h.bind fun a b hab => .pure (hmap a b hab)

/-- The wording of a message does not count. -/
theorem unmapped_alike (message₁ message₂ : String) :
    (unmapped message₁).Alike Eq (unmapped message₂) := ⟨rfl, rfl, rfl, rfl⟩

end Noted

end JsxWidgets
