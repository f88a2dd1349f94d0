import JsxWidgets.Proofs.Lowering.Forms
import JsxWidgets.Proofs.Widget.Gathered

/-!
# Lowering with a state

The lowering notes what is to be gathered, and notes append. Here the same lowering hands a state
through all of its steps instead: through the attributes of an element, through its children, and
through markup in the attributes of components. Every construct changes the state in its turn.

Both agree in every state (`Builder.lower_run`), so what is gathered has no influence on what is
made: a builder makes from a piece of markup what it makes from it at the start, and gathers from it
what it gathers from it at the start (`lower_independent`).
-/

namespace JsxWidgets

open Syntax Expression Gathering

/-! ### The lowering -/

/-- What attributes of a known element add, behind what was added before. -/
def gatherAttributes (row : ElementRow) (tag target : String) :
    List Node → Additions → Gathering Additions
  | [], before => return before
  | attr :: rest, before => do
    let added ← perform (lowerAttribute row tag target (Widget.hasKey "key" before.properties) attr)
    gatherAttributes row tag target rest (before ++ added)

/-- What the attributes of a text inside another text add. -/
def gatherNestedAttributes (tag target : String) : List Node → Gathering Additions
  | [] => return {}
  | attr :: rest => do
    let added ← perform (lowerNestedAttribute tag target attr)
    let more ← gatherNestedAttributes tag target rest
    return added ++ more

mutual

/-- What a child gives to the text of a widget. -/
def gatherText (overrides : Overrides) (target : String) : Node → Gathering TextContent
  | ⟨form, _, parts⟩ =>
    match form, parts with
    | .text raw, _ =>
      let text := Text.normalize raw
      return if text.isEmpty then {} else .piece (.fixed text)
    | .container, [⟨.absent, _, _⟩] => return {}
    | .container, [e] => perform (expressionText e)
    | .element, [⟨.opening tag, _, ⟨_, _, attributes⟩ :: _⟩, ⟨_, _, nodes⟩, _] =>
      if isTextLike overrides tag.text then do
        let added ← gatherNestedAttributes tag.text target attributes
        let inner ← gatherTexts overrides target nodes
        return { additions := added } ++ inner
      else perform (leftOut ("<" ++ tag.text ++ "> dropped: " ++ target ++ " takes text only"))
    | .fragment, nodes => gatherTexts overrides target nodes
    | .spreadChild, [e] =>
      perform (leftOut ("spread child " ++ openBrace ++ "..." ++ summary e ++ closeBrace
        ++ " not lowered"))
    | _, _ => return {}

/-- What children give to the text of a widget. -/
def gatherTexts (overrides : Overrides) (target : String) : List Node → Gathering TextContent
  | [] => return {}
  | n :: ns => do
    let first ← gatherText overrides target n
    let rest ← gatherTexts overrides target ns
    return first ++ rest

end

mutual

/-- The widgets that a child or an expression becomes. -/
def gatherNode (overrides : Overrides) : Node → Gathering (List Widget)
  | ⟨form, place, parts⟩ =>
    match form, parts with
    | .text raw, _ =>
      let text := Text.normalize raw
      return if text.isEmpty then [] else [.ofText text]
    | .element, [⟨.opening tag, _, ⟨_, _, attributes⟩ :: _⟩, ⟨_, _, nodes⟩, _] =>
      if (overrides.resolve? tag.text).isNone && tag.isCustom then do
        perform (Noted.component tag.text)
        let given ← gatherComponentAttributes overrides tag.text attributes
        let ws ← gatherNodes overrides nodes
        return [componentWidget tag.text given ws]
      else do
        let found ← perform (elementRow overrides tag.text)
        let given ← gatherAttributes found.row tag.text found.target attributes {}
        if found.row.roles.textLike then
          let content ← gatherTexts overrides found.target nodes
          return [textWidget found.row tag.text found.target given content]
        else
          let ws ← gatherNodes overrides nodes
          let remarks ← perform (found.row.slot.dropped found.target ws)
          return [boxWidget found.row tag.text found.target given ws remarks]
    | .fragment, nodes => gatherNodes overrides nodes
    | .container, [⟨.absent, _, _⟩] => return []
    | .container, [e] =>
      match plainText? e with
      | some s => return if Text.isAllBlank s then [] else [.ofText s]
      | none => gatherNode overrides e
    | .spreadChild, [e] => do
      let w ← perform (placeholderFor e)
      return [w]
    | .paren, [e] => gatherNode overrides e
    | .asType, [e, _] => gatherNode overrides e
    | .asConst, [e] => gatherNode overrides e
    | .satisfies, [e, _] => gatherNode overrides e
    | .nonNull, [e] => gatherNode overrides e
    | .markup, [n] => gatherNode overrides n
    | _, _ => do
      let w ← perform (placeholderFor ⟨form, place, parts⟩)
      return [w]

/-- The widgets that several children become. -/
def gatherNodes (overrides : Overrides) : List Node → Gathering (List Widget)
  | [] => return []
  | n :: ns => do
    let first ← gatherNode overrides n
    let rest ← gatherNodes overrides ns
    return first ++ rest

/-- What an attribute of a component adds. -/
def gatherComponentAttribute (overrides : Overrides) (target : String) :
    Node → Gathering Additions
  | ⟨form, place, parts⟩ =>
    match form, parts with
    | .attr attrName, [inner] =>
      let name := attrName.text
      let given := GivenValue.ofAttribute ⟨form, place, parts⟩
      if isClassAttribute name then perform (lowerClass "" given)
      else if name = "key" then return keyArgument given
      else
        match given with
        | .markup _ => do
          let ws ← gatherNode overrides inner
          return .argument (.named name (.widget (siblings ws)))
        | other => return .argument (.named name (plainArgument name other))
    | .spread, [e] => perform (lowerSpread target e)
    | _, _ => return {}

/-- What the attributes of a component add. -/
def gatherComponentAttributes (overrides : Overrides) (target : String) :
    List Node → Gathering Additions
  | [] => return {}
  | attr :: rest => do
    let added ← gatherComponentAttribute overrides target attr
    let more ← gatherComponentAttributes overrides target rest
    return added ++ more

end

/-- **The widget that markup becomes**, with a state: an element, or the children of a fragment. -/
def gatherMarkup (overrides : Overrides) (markup : Node) : Gathering Widget :=
  siblings <$> gatherNode overrides markup

/-! ### Agreement with notes -/

theorem gatherAttributes_does (row : ElementRow) (tag target : String) (attrs : List Node)
    (before : Additions) :
    (gatherAttributes row tag target attrs before).Does
      (lowerAttributes row tag target attrs before) := by
  induction attrs generalizing before with
  | nil => exact .pure before
  | cons attr rest ih => exact (does_perform _).bind fun added => ih (before ++ added)

theorem gatherNestedAttributes_does (tag target : String) (attrs : List Node) :
    (gatherNestedAttributes tag target attrs).Does (lowerNestedAttributes tag target attrs) := by
  induction attrs with
  | nil => exact .pure _
  | cons attr rest ih =>
    exact (does_perform _).bind fun added => ih.bind fun more => .pure (added ++ more)

mutual

theorem gatherText_does (overrides : Overrides) (target : String) (n : Node) :
    (gatherText overrides target n).Does (collectText overrides target n) := by
  obtain ⟨form, place, parts⟩ := n
  unfold gatherText
  split
  · -- a text as it is written
    rw [collectText]
    exact .pure _
  · -- braces around nothing
    rw [collectText]
    exact .pure _
  · -- braces around an expression
    rw [collectText]
    · exact does_perform _
    · assumption
  · -- an element
    rw [collectText]
    split
    · exact (gatherNestedAttributes_does _ target _).bind fun added =>
        (gatherTexts_does overrides target _).bind fun inner => .pure _
    · exact does_perform _
  · -- a fragment
    rw [collectText]
    exact gatherTexts_does overrides target _
  · -- a spread
    rw [collectText]
    exact does_perform _
  · -- nothing that has a rule
    rw [collectText]
    · exact .pure _
    all_goals assumption

theorem gatherTexts_does (overrides : Overrides) (target : String) (ns : List Node) :
    (gatherTexts overrides target ns).Does (collectTexts overrides target ns) := by
  match ns with
  | [] => exact .pure _
  | n :: ns =>
    exact (gatherText_does overrides target n).bind fun first =>
      (gatherTexts_does overrides target ns).bind fun rest => .pure (first ++ rest)

end

mutual

theorem gatherNode_does (overrides : Overrides) (n : Node) :
    (gatherNode overrides n).Does (lowerNode overrides n) := by
  obtain ⟨form, place, parts⟩ := n
  unfold gatherNode
  split
  · -- a text as it is written
    rw [lowerNode]
    exact .pure _
  · -- an element
    rw [lowerNode]
    split
    · -- a component
      exact (does_perform _).bind fun _ =>
        (gatherComponentAttributes_does overrides _ _).bind fun given =>
          (gatherNodes_does overrides _).bind fun ws => .pure _
    · -- an element with a row
      refine (does_perform _).bind fun found =>
        (gatherAttributes_does found.row _ found.target _ {}).bind fun given => ?_
      split
      · exact (gatherTexts_does overrides found.target _).bind fun content => .pure _
      · exact (gatherNodes_does overrides _).bind fun ws =>
          (does_perform _).bind fun remarks => .pure _
  · -- a fragment
    rw [lowerNode]
    exact gatherNodes_does overrides _
  · -- braces around nothing
    rw [lowerNode]
    exact .pure []
  · -- braces around an expression, which may be a text
    next e hform =>
    rw [lowerNode]
    · cases plainText? e with
      | some text => exact .pure _
      | none => exact gatherNode_does overrides e
    · exact hform
  · -- a spread
    rw [lowerNode]
    exact (does_perform _).bind fun w => .pure [w]
  case h_7 | h_8 | h_9 | h_10 | h_11 | h_12 =>
    -- parentheses, type assertions, and markup as an expression
    rw [lowerNode]
    exact gatherNode_does overrides _
  · -- nothing that has a rule
    rw [lowerNode]
    · exact (does_perform _).bind fun w => .pure [w]
    all_goals assumption

theorem gatherNodes_does (overrides : Overrides) (ns : List Node) :
    (gatherNodes overrides ns).Does (lowerNodes overrides ns) := by
  match ns with
  | [] => exact .pure []
  | n :: ns =>
    exact (gatherNode_does overrides n).bind fun first =>
      (gatherNodes_does overrides ns).bind fun rest => .pure (first ++ rest)

theorem gatherComponentAttribute_does (overrides : Overrides) (target : String) (attr : Node) :
    (gatherComponentAttribute overrides target attr).Does
      (lowerComponentAttribute overrides target attr) := by
  obtain ⟨form, place, parts⟩ := attr
  unfold gatherComponentAttribute
  split
  · next name inner =>
    rw [lowerComponentAttribute]
    dsimp only
    split
    · exact does_perform _
    · split
      · exact .pure _
      · -- Markup is lowered, and everything else is an argument as it is.
        cases GivenValue.ofAttribute ⟨.attr name, place, [inner]⟩ with
        | markup n => exact (gatherNode_does overrides inner).bind fun ws => .pure _
        | standsAlone | text t | expression e => exact .pure _
  · rw [lowerComponentAttribute]
    exact does_perform _
  · rw [lowerComponentAttribute]
    · exact .pure _
    all_goals assumption

theorem gatherComponentAttributes_does (overrides : Overrides) (target : String)
    (attrs : List Node) :
    (gatherComponentAttributes overrides target attrs).Does
      (lowerComponentAttributes overrides target attrs) := by
  match attrs with
  | [] => exact .pure _
  | attr :: rest =>
    exact (gatherComponentAttribute_does overrides target attr).bind fun added =>
      (gatherComponentAttributes_does overrides target rest).bind fun more => .pure (added ++ more)

end

theorem gatherMarkup_does (overrides : Overrides) (markup : Node) :
    (gatherMarkup overrides markup).Does (lowerMarkup overrides markup) :=
  (gatherNode_does overrides markup).map siblings

/-! ### Builders -/

namespace Builder

/-- The widgets of several pieces of markup, and the builder behind them. -/
def lowerAll (b : Builder) : List Node → List Widget × Builder
  | [] => ([], b)
  | markup :: rest =>
    let (w, next) := b.lower markup
    let (ws, last) := next.lowerAll rest
    (w :: ws, last)

/-- **A builder goes through the states**: it makes the widget that is made in its state, and what
it has gathered behind it is the state behind it. -/
theorem lower_run (b : Builder) (markup : Node) :
    (gatherMarkup b.overrides markup).run b.gathered =
      ((b.lower markup).1, (b.lower markup).2.gathered) := by
  rw [gatherMarkup_does, lower, gathered_keep]

theorem lowerAll_run (b : Builder) (markups : List Node) :
    (markups.mapM (gatherMarkup b.overrides)).run b.gathered =
      ((b.lowerAll markups).1, (b.lowerAll markups).2.gathered) := by
  induction markups generalizing b with
  | nil => rfl
  | cons markup rest ih =>
    have hrest := ih (b.lower markup).2
    rw [lower_overrides] at hrest
    rw [List.mapM_cons, StateT.run_bind, lower_run]
    change (do
      let (ws, last) ← (rest.mapM (gatherMarkup b.overrides)).run (b.lower markup).2.gathered
      Pure.pure ((b.lower markup).1 :: ws, last) : Id _) = _
    rw [hrest]
    rfl

/-- **The lowering does not depend on what was lowered before.** From every state, a piece of markup
becomes the widget that it becomes at the start, and what is gathered from it at the start is added
to the state: the sets are united, and the diagnostics stand behind those of the state. For a
sequence of pieces, what is gathered from each of them at the start adds up. A builder goes through
these states, for one piece and for a sequence, and its tree tells the state that it is in. -/
theorem lower_independent (b : Builder) :
    (∀ (s : Gathered) (markup : Node),
      (gatherMarkup b.overrides markup).run s =
        (((gatherMarkup b.overrides markup).run {}).1,
          s ++ ((gatherMarkup b.overrides markup).run {}).2)) ∧
    (∀ (s : Gathered) (markups : List Node),
      (markups.mapM (gatherMarkup b.overrides)).run s =
        (markups.map fun markup => ((gatherMarkup b.overrides markup).run {}).1,
          s ++ .join (markups.map fun markup => ((gatherMarkup b.overrides markup).run {}).2))) ∧
    (∀ markup : Node,
      (gatherMarkup b.overrides markup).run b.gathered =
        ((b.lower markup).1, (b.lower markup).2.gathered)) ∧
    (∀ markups : List Node,
      (markups.mapM (gatherMarkup b.overrides)).run b.gathered =
        ((b.lowerAll markups).1, (b.lowerAll markups).2.gathered)) ∧
    ∀ (name : Option String) (root : Widget), b.finish name root = b.gathered.finish name root :=
  have hdoes := gatherMarkup_does b.overrides
  ⟨fun s markup => (hdoes markup).run_eq s, fun s markups => run_mapM hdoes markups s, b.lower_run,
    b.lowerAll_run, b.finish_eq⟩

end Builder

end JsxWidgets
