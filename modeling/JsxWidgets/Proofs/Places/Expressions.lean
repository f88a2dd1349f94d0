import JsxWidgets.Hook.SideEffects
import JsxWidgets.Proofs.Places.Relocation
import JsxWidgets.Syntax.Markup

/-!
# Moved expressions

What is asked of an expression by its shape has the same answer after a move, and a part that is
asked for is the same part, moved. Paths and summaries can be read off the outline of an expression,
which has no places at all.
-/

namespace JsxWidgets

open Syntax Syntax.Node

namespace Expression

variable {f : Place → Place}

/-! ### Kinds, paths and summaries -/

/-- The kind of an expression does not depend on where it stands. -/
@[simp] theorem kind_relocate (e : Node) : kind (e.relocate f) = kind e := by
  rw [kind, kind, unwrap_relocate, form_relocate]

/-- Nor does the type that is inferred for it. -/
@[simp] theorem inferredType_relocate (e : Option Node) :
    inferredType (e.map (relocate f)) = inferredType e := by
  cases e with
  | none => rfl
  | some e => exact congrArg Kind.typeName (kind_relocate e)

@[simp] theorem isMarkup_relocate (e : Node) : isMarkup (e.relocate f) = isMarkup e := by
  rw [isMarkup, isMarkup, unwrap_relocate, form_relocate]

@[simp] theorem isFunction_relocate (e : Node) : isFunction (e.relocate f) = isFunction e := by
  rw [isFunction, isFunction, kind_relocate]

/-- Its path is the same as well. -/
@[simp] theorem path?_relocate (e : Node) : path? (e.relocate f) = path? e := by
  rw [← path?_outline, outline_relocate, path?_outline]

/-- So is its summary, which shows no places. -/
@[simp] theorem summary_relocate (e : Node) : summary (e.relocate f) = summary e := by
  rw [summary, summary, ← keepsSummary, outline_relocate, keepsSummary]

@[simp] theorem markupSummary_relocate (m : Node) :
    markupSummary (m.relocate f) = markupSummary m := by
  rw [← markupSummary_outline, outline_relocate, markupSummary_outline]

/-! ### Calls -/

/-- A call calls the same path wherever it stands. -/
@[simp] theorem calleePath?_relocate (call : Node) :
    calleePath? (call.relocate f) = calleePath? call := by
  obtain ⟨form, place, parts⟩ := call
  cases form
  case call =>
    cases parts with
    | nil => rfl
    | cons callee rest => exact path?_relocate callee
  all_goals rfl

@[simp] theorem calleeName?_relocate (call : Node) :
    calleeName? (call.relocate f) = calleeName? call := by
  rw [calleeName?, calleeName?, calleePath?_relocate]

/-- Its arguments move with it. -/
theorem arguments_relocate (call : Node) :
    arguments (call.relocate f) = relocates f (arguments call) := by
  obtain ⟨form, place, parts⟩ := call
  cases form
  case call =>
    match parts with
    | [] | [_] => rfl
    | [_, ⟨second, _, _⟩] | [_, ⟨second, _, _⟩, _] | _ :: ⟨second, _, _⟩ :: _ :: _ :: _ =>
      cases second <;> rfl
  all_goals rfl

theorem itemValue_relocate (item : Node) :
    itemValue (item.relocate f) = (itemValue item).relocate f := by
  obtain ⟨form, place, parts⟩ := item
  cases form
  case item | spread =>
    match parts with
    | [e] => rfl
    | [] | _ :: _ :: _ => rfl
  all_goals rfl

/-- So does each of them. -/
@[simp] theorem argument?_relocate (call : Node) (i : Nat) :
    argument? (call.relocate f) i = (argument? call i).map (relocate f) := by
  rw [argument?, argument?, arguments_relocate, getElem?_relocates, Option.map_map, Option.map_map]
  exact congrArg (Option.map · _) (funext itemValue_relocate)

/-! ### Literals -/

@[simp] theorem keyName?_relocate (key : Node) : keyName? (key.relocate f) = keyName? key := by
  rw [keyName?, keyName?, form_relocate]

mutual

/-- **The value of an expression does not depend on where it stands**, nor do those of its parts. -/
@[simp] theorem literal?_relocate (e : Node) : literal? (e.relocate f) = literal? e := by
  obtain ⟨form, place, parts⟩ := e
  cases form
  case paren | asConst | nonNull =>
    rcases parts with _ | ⟨e, _ | ⟨_, _⟩⟩
    · rfl
    · simpa only [relocate, relocates, literal?] using literal?_relocate e
    · rfl
  case asType | satisfies =>
    rcases parts with _ | ⟨e, _ | ⟨_, _ | ⟨_, _⟩⟩⟩
    · rfl
    · rfl
    · simpa only [relocate, relocates, literal?] using literal?_relocate e
    · rfl
  -- of the unary operators only the minus sign makes a literal
  case unary op =>
    cases op
    case minus =>
      rcases parts with _ | ⟨e, _ | ⟨_, _⟩⟩
      · rfl
      · simp only [relocate, relocates, literal?, literal?_relocate e]
      · rfl
    all_goals rfl
  case template quasis => cases parts <;> rfl
  case array => exact congrArg (Option.map Literal.array) (literalItems?_relocates parts)
  case object => exact congrArg (Option.map Literal.object) (literalFields?_relocates parts [])
  all_goals rfl

/-- Nor do the values of several items. -/
theorem literalItems?_relocates (items : List Node) :
    literalItems? (relocates f items) = literalItems? items := by
  rcases items with _ | ⟨⟨form, place, parts⟩, rest⟩
  · rfl
  · have hrest := literalItems?_relocates rest
    cases form
    case item =>
      rcases parts with _ | ⟨e, _ | ⟨_, _⟩⟩
      · rfl
      · simp only [relocates, relocate, literalItems?, literal?_relocate e, hrest]
      · rfl
    all_goals rfl

/-- Nor do those of several properties. -/
theorem literalFields?_relocates (properties : List Node) (fields : List (String × Literal)) :
    literalFields? (relocates f properties) fields = literalFields? properties fields := by
  rcases properties with _ | ⟨⟨form, place, parts⟩, rest⟩
  · rfl
  · cases form
    case keyed =>
      rcases parts with _ | ⟨key, _ | ⟨value, _ | ⟨_, _⟩⟩⟩
      · rfl
      · rfl
      · simp only [relocates, relocate, literalFields?, keyName?_relocate, literal?_relocate value,
          literalFields?_relocates rest]
      · rfl
    all_goals rfl

end

@[simp] theorem snapshot_relocate (e : Node) : snapshot (e.relocate f) = snapshot e := by
  rw [snapshot, snapshot, literal?_relocate, summary_relocate]

end Expression

end JsxWidgets
