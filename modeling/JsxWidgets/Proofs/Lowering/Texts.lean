import JsxWidgets.Proofs.Lowering.Attributes

/-!
# What is inside a text

A text takes the text of everything inside it, and so it loses everything inside it that is not
text: the attributes of elements that are merged into it, expressions that are not evaluated,
spreads, and elements of another sort. These are its intrusions (`Node.intrusions`), in the order of
the document. All that the content of a text adds to its widget, and all that is noted for it, is
given intrusion by intrusion (`collectTexts_additions`, `collectTexts_notes`).
-/

namespace JsxWidgets

open Syntax Expression

/-! ### Intrusions -/

/-- **Something inside a text that is not text.** -/
inductive Intrusion where
  /-- An attribute of an element that is merged into the text. -/
  | merged (tag : String) (given : GivenAttribute)
  /-- An expression that is not evaluated. -/
  | expression (e : Node)
  /-- All values of an iterable. -/
  | spread (e : Node)
  /-- An element that does not show text only. -/
  | element (tag : String)

namespace Intrusion

/-- The comment in the place of an argument: every attribute becomes one, unless it holds class
names. -/
def comment? : Intrusion → Option Property
  | .merged tag g => nestedComment? tag g
  | .expression _ => none
  | .spread _ => none
  | .element _ => none

theorem comment?_eq {lost : Intrusion} {p : Property} (h : lost.comment? = some p) :
    ∃ key text, p = .comment key text := by
  cases lost with
  | merged tag g => exact nestedComment?_eq h
  | expression e | spread e | element tag => cases h

/-- What is not translated: everything but class names. -/
def untranslated? (target : String) : Intrusion → Option Untranslated
  | .merged tag g => nestedUntranslated? tag target g
  | .expression e => some (.expression e)
  | .spread e => some (.spreadInText e)
  | .element tag => some (.elementInText tag target)

/-- The remark of the widget: class names, or the message for what is left out. -/
def remark? (target : String) : Intrusion → Option String
  | .merged tag g => g.classRemark? (nestedMark tag)
  | other => (other.untranslated? target).map (·.message)

/-- The class names. -/
def classTokens : Intrusion → List String
  | .merged _ g => g.classTokens
  | .expression _ => []
  | .spread _ => []
  | .element _ => []

end Intrusion

/-- Whether an expression gives text: it is a literal, or a path. -/
def givesText (e : Node) : Bool := (plainText? e).isSome || (path? e).isSome

mutual

/-- What is inside a child of a text and is not text. -/
def Syntax.Node.intrusions (overrides : Overrides) : Node → List Intrusion
  | ⟨form, _, parts⟩ =>
    match form, parts with
    | .text _, _ => []
    | .container, [⟨.absent, _, _⟩] => []
    | .container, [e] => if givesText e then [] else [.expression e.unwrap]
    | .element, [⟨.opening tag, _, ⟨_, _, attributes⟩ :: _⟩, ⟨_, _, nodes⟩, _] =>
      if isTextLike overrides tag.text then
        (attributes.filterMap GivenAttribute.ofNode?).map (.merged tag.text)
          ++ Syntax.Node.intrusionsOf overrides nodes
      else [.element tag.text]
    | .fragment, nodes => Syntax.Node.intrusionsOf overrides nodes
    | .spreadChild, [e] => [.spread e]
    | _, _ => []

/-- What is inside several children of a text and is not text. -/
def Syntax.Node.intrusionsOf (overrides : Overrides) : List Node → List Intrusion
  | [] => []
  | n :: ns => Syntax.Node.intrusions overrides n ++ Syntax.Node.intrusionsOf overrides ns

end

/-! ### The content of a text -/

/-- What the intrusions of a text add to its widget. -/
def Additions.ofIntrusions (target : String) (lost : List Intrusion) : Additions :=
  ⟨lost.filterMap Intrusion.comment?, lost.filterMap (Intrusion.remark? target)⟩

/-- What is noted for the intrusions of a text. -/
def Notes.ofIntrusions (target : String) (lost : List Intrusion) : Notes where
  classNames := lost.flatMap Intrusion.classTokens
  diagnostics := (lost.filterMap (Intrusion.untranslated? target)).map (·.diagnostic)

theorem Additions.ofIntrusions_append (target : String) (a b : List Intrusion) :
    ofIntrusions target (a ++ b) = ofIntrusions target a ++ ofIntrusions target b := by
  rw [ofIntrusions, List.filterMap_append, List.filterMap_append]
  rfl

theorem Notes.ofIntrusions_append (target : String) (a b : List Intrusion) :
    ofIntrusions target (a ++ b) = ofIntrusions target a ++ ofIntrusions target b := by
  rw [ofIntrusions, List.flatMap_append, List.filterMap_append, List.map_append]
  rfl

/-- A result that says of a text exactly what its intrusions say. -/
def Noted.Tells (target : String) (lost : List Intrusion) (content : Noted TextContent) : Prop :=
  content.value.additions = .ofIntrusions target lost ∧ content.notes = .ofIntrusions target lost

theorem Noted.Tells.append {target : String} {a b : List Intrusion} {x y : Noted TextContent}
    (hx : x.Tells target a) (hy : y.Tells target b) :
    (do return (← x) ++ (← y) : Noted TextContent).Tells target (a ++ b) := by
  refine ⟨?_, ?_⟩
  · rw [Additions.ofIntrusions_append, ← hx.1, ← hy.1]
    rfl
  · rw [Notes.ofIntrusions_append, ← hx.2, ← hy.2]
    exact congrArg (x.notes ++ ·) (Notes.append_empty y.notes)

theorem leftOut_tells {target : String} {lost : Intrusion} {u : Untranslated}
    (hlost : lost.untranslated? target = some u) (hremark : lost.remark? target = some u.message)
    (hcomment : lost.comment? = none) (hclass : lost.classTokens = []) :
    (leftOut u.message).Tells target [lost] := by
  refine ⟨?_, ?_⟩
  · simp [leftOut, Additions.ofIntrusions, Additions.remark, hcomment, hremark]
  · simp [leftOut, Notes.ofIntrusions, hclass, hlost, Untranslated.diagnostic]

theorem expressionText_tells (target : String) (e : Node) :
    (expressionText e).Tells target (if givesText e then [] else [.expression e.unwrap]) := by
  unfold expressionText givesText
  cases hplain : plainText? e with
  | some s =>
    -- A literal tells nothing, blank or not.
    rw [Option.isSome_some, Bool.true_or, if_pos rfl]
    dsimp only
    split
    · refine ⟨?_, rfl⟩
      rw [Noted.value_pure]
      split <;> rfl
    · exact ⟨rfl, rfl⟩
  | none =>
    cases hpath : path? e with
    | some p => exact ⟨rfl, rfl⟩
    | none => exact leftOut_tells (u := .expression e.unwrap) rfl rfl rfl rfl

theorem lowerNestedAttributes_tells (tag target : String) (attrs : List Node) :
    (do return { additions := ← lowerNestedAttributes tag target attrs } : Noted TextContent).Tells
      target ((attrs.filterMap GivenAttribute.ofNode?).map (.merged tag)) := by
  refine ⟨?_, ?_⟩
  · rw [Noted.value_bind, lowerNestedAttributes_value, Additions.ofIntrusions, List.filterMap_map,
      List.filterMap_map]
    rfl
  · rw [Noted.notes_bind, lowerNestedAttributes_notes, Notes.ofIntrusions, List.filterMap_map,
      List.flatMap_map]
    exact Notes.append_empty _

mutual

theorem collectText_tells (overrides : Overrides) (target : String) (n : Node) :
    (collectText overrides target n).Tells target (n.intrusions overrides) := by
  obtain ⟨form, place, parts⟩ := n
  unfold Node.intrusions
  split
  · -- a text as it is written
    rw [collectText]
    refine ⟨?_, rfl⟩
    rw [Noted.value_pure]
    split <;> rfl
  · -- braces around nothing
    rw [collectText]
    exact ⟨rfl, rfl⟩
  · -- braces around an expression
    rw [collectText]
    · exact expressionText_tells target _
    · assumption
  · -- an element
    rw [collectText]
    split
    · -- It is merged: its attributes tell in front of its children.
      next tag _ _ _ attributes _ _ _ nodes _ _ =>
      have h := (lowerNestedAttributes_tells tag.text target attributes).append
        (collectTexts_tells overrides target nodes)
      simpa only [bind_assoc, pure_bind] using h
    · next tag _ _ _ _ _ _ _ _ _ _ =>
      exact leftOut_tells (u := .elementInText tag.text target) rfl rfl rfl rfl
  · -- a fragment
    rw [collectText]
    exact collectTexts_tells overrides target _
  · -- a spread
    rw [collectText]
    next e =>
      exact leftOut_tells (u := .spreadInText e) rfl rfl rfl rfl
  · -- nothing that has a rule
    rw [collectText]
    · exact ⟨rfl, rfl⟩
    all_goals assumption

theorem collectTexts_tells (overrides : Overrides) (target : String) (ns : List Node) :
    (collectTexts overrides target ns).Tells target (Node.intrusionsOf overrides ns) := by
  match ns with
  | [] => exact ⟨rfl, rfl⟩
  | n :: ns =>
    rw [collectTexts, Node.intrusionsOf]
    exact (collectText_tells overrides target n).append (collectTexts_tells overrides target ns)

end

end JsxWidgets
