import Mathlib.Logic.Basic
import JsxWidgets.Component
import JsxWidgets.Expression.Literal
import JsxWidgets.Expression.Pieces
import JsxWidgets.Proofs.Syntax.Nodes

/-!
# Expressions without wrappers

A wrapper says nothing about the value of the expression in it: parentheses, a type or `const`
behind the expression, or the mark that it is neither null nor undefined. `Node.bare` takes all
wrappers away, at every depth, and nothing that is asked of an expression by its shape is answered
differently afterwards (`Expression.sameAnswers_bare`).

A question sees through wrappers if its answer for a wrapper is that for what is inside
(`SeesThrough`). That alone only takes away the wrappers around the whole expression. What has to be
shown of each question is that it goes on to ask questions that see through wrappers, wherever it
goes down into operands, items, keys, objects and branches: one step each, from which
`SeesThrough.bare` makes the statement for all depths.
-/

namespace JsxWidgets

namespace Syntax.Node

/-! ### Wrappers -/

/-- What stands inside a node that has the shape of a wrapper. -/
def inside? : Node → Option Node
  | ⟨.paren, _, [e]⟩ | ⟨.asType, _, [e, _]⟩ | ⟨.asConst, _, [e]⟩ | ⟨.satisfies, _, [e, _]⟩
  | ⟨.nonNull, _, [e]⟩ => some e
  | _ => none

/-- **The expression in a wrapper**, if a node is one. What stands around something else than an
expression is none. -/
def wrapped? (n : Node) : Option Node := n.inside?.filter (·.form.isExpr)

/-- What becomes of a wrapper when there are no more wrappers inside: the expression takes its
place. -/
def unwrapInside (form : Form) (place : Place) (inside : Node) (types : List Node) : Node :=
  if inside.form.isExpr then inside else ⟨form, place, inside :: types⟩

mutual

/-- **A node without the wrappers** in it, at every depth. -/
def bare : Node → Node
  | ⟨form, place, parts⟩ =>
    match form, parts with
    | .paren, [e] => unwrapInside .paren place e.bare []
    | .asType, [e, type] => unwrapInside .asType place e.bare [type.bare]
    | .asConst, [e] => unwrapInside .asConst place e.bare []
    | .satisfies, [e, type] => unwrapInside .satisfies place e.bare [type.bare]
    | .nonNull, [e] => unwrapInside .nonNull place e.bare []
    | form, parts => ⟨form, place, bares parts⟩

/-- Several nodes without the wrappers in them. -/
def bares : List Node → List Node
  | [] => []
  | n :: ns => n.bare :: bares ns

end

/-- Several nodes are bared one by one. -/
theorem bares_eq_map (ns : List Node) : bares ns = ns.map bare := by
  induction ns with
  | nil => rfl
  | cons n ns ih => rw [bares, ih, List.map_cons]

/-- A node with its parts bare. -/
def withBareParts (n : Node) : Node := ⟨n.form, n.place, bares n.parts⟩

/-- What stands inside a wrapper is a part of it. -/
theorem inside?_mem {n e : Node} (h : n.inside? = some e) : e ∈ n.parts := by
  unfold inside? at h
  split at h <;> cases h <;> exact List.mem_cons_self

/-- It is found in the same place once the parts are bared. -/
theorem inside?_withBareParts (n : Node) : n.withBareParts.inside? = n.inside?.map bare := by
  obtain ⟨form, place, parts⟩ := n
  cases form
  case paren | asConst | nonNull =>
    match parts with
    | [e] | [] | _ :: _ :: _ => rfl
  case asType | satisfies =>
    match parts with
    | [e, _] | [] | [_] | _ :: _ :: _ :: _ => rfl
  all_goals rfl

/-- Without wrappers an expression is still one, and anything else is still none. -/
theorem isExpr_bare (n : Node) : n.bare.form.isExpr = n.form.isExpr := by
  -- a wrapper is an expression, and it is dropped only around another one
  have hwrapper : ∀ {form : Form} (place : Place) (e : Node) (types : List Node),
      form.isExpr = true → (unwrapInside form place e types).form.isExpr = true := by
    intro form place e types hform
    rw [unwrapInside]
    split
    · assumption
    · exact hform
  obtain ⟨form, place, parts⟩ := n
  cases form
  case paren | asConst | nonNull =>
    match parts with
    | [e] => exact hwrapper place _ _ rfl
    | [] | _ :: _ :: _ => rfl
  case asType | satisfies =>
    match parts with
    | [e, _] => exact hwrapper place _ _ rfl
    | [] | [_] | _ :: _ :: _ :: _ => rfl
  all_goals rfl

/-- What is wrapped is bare without its wrapper, and any other node with its parts bare. -/
theorem bare_eq (n : Node) : n.bare = n.wrapped?.elim n.withBareParts bare := by
  -- the inner node is an expression or not, and stays what it is
  have hwrapper : ∀ (form : Form) (place : Place) (e : Node) (types : List Node),
      unwrapInside form place e.bare types
        = ((some e).filter (·.form.isExpr)).elim ⟨form, place, e.bare :: types⟩ bare := by
    intro form place e types
    rw [unwrapInside, isExpr_bare, Option.filter_some]
    split <;> rfl
  obtain ⟨form, place, parts⟩ := n
  cases form
  case paren | asConst | nonNull =>
    match parts with
    | [e] => exact hwrapper _ place e []
    | [] | _ :: _ :: _ => rfl
  case asType | satisfies =>
    match parts with
    | [e, type] => exact hwrapper _ place e [type.bare]
    | [] | [_] | _ :: _ :: _ :: _ => rfl
  all_goals rfl

/-- A wrapper is bared to what is inside. -/
theorem bare_of_wrapped? {n e : Node} (h : n.wrapped? = some e) : n.bare = e.bare := by
  rw [bare_eq, h]
  rfl

/-- Anything else keeps its form, and its parts are bared. -/
theorem bare_of_not_wrapped {n : Node} (h : n.wrapped? = none) : n.bare = n.withBareParts := by
  rw [bare_eq, h]
  rfl

/-- Without anything inside there is no wrapper to take away. -/
theorem wrapped?_eq_none_of_inside? {n : Node} (h : n.inside? = none) : n.wrapped? = none := by
  rw [wrapped?, h]
  rfl

/-- Only expressions are wrappers. -/
theorem wrapped?_eq_none_of_form {n : Node} (h : n.form.isExpr = false) : n.wrapped? = none := by
  refine wrapped?_eq_none_of_inside? ?_
  obtain ⟨form, place, parts⟩ := n
  cases form
  case paren | asType | asConst | satisfies | nonNull => cases h
  all_goals rfl

/-- What is no expression keeps its form. -/
theorem bare_of_form {n : Node} (h : n.form.isExpr = false) : n.bare = n.withBareParts :=
  bare_of_not_wrapped (wrapped?_eq_none_of_form h)

/-- **No wrapper is left.** -/
theorem wrapped?_of_mem_bare (n : Node) : ∀ m ∈ n.bare.nodes, m.wrapped? = none := by
  induction n using induction_below with
  | step n ih =>
    cases hn : n.wrapped? with
    | some e =>
      rw [bare_of_wrapped? hn]
      obtain ⟨hinside, -⟩ := Option.filter_eq_some_iff.mp hn
      exact ih e (mem_nodesOf_of_mem (inside?_mem hinside))
    | none =>
      rw [bare_of_not_wrapped hn]
      intro m hm
      rcases mem_nodes_iff.mp hm with rfl | hbelow
      · -- If it has the shape of a wrapper, no expression was in it, and none is.
        rw [wrapped?, inside?_withBareParts]
        rw [wrapped?] at hn
        cases hinside : n.inside? with
        | none => rfl
        | some e =>
          rw [hinside] at hn
          simpa [isExpr_bare] using hn
      · rw [withBareParts, bares_eq_map] at hbelow
        obtain ⟨part, hpart, hmem⟩ := mem_nodesOf.mp hbelow
        obtain ⟨k, hk, rfl⟩ := List.mem_map.mp hpart
        exact ih k (mem_nodesOf_of_mem hk) m hmem

/-! ### Questions that see through wrappers -/

/-- **Seeing through wrappers**: the answer for a wrapper is that for what is inside. -/
def SeesThrough {β : Type} (q : Node → β) : Prop := ∀ n e : Node, n.inside? = some e → q n = q e

/-- **From one step to all depths.** Two questions that see through wrappers agree on all nodes
with and without wrappers, if they do so on a node that is no wrapper as soon as they do so below
it. -/
theorem SeesThrough.bare {β : Type} {q q' : Node → β} (hq : SeesThrough q) (hq' : SeesThrough q')
    (step : ∀ n : Node, n.inside? = none → (∀ m ∈ nodesOf n.parts, q m.bare = q' m) →
      q n.withBareParts = q' n) (n : Node) : q n.bare = q' n := by
  induction n using induction_below with
  | step n ih =>
    cases hinside : n.inside? with
    | none =>
      rw [bare_of_not_wrapped (wrapped?_eq_none_of_inside? hinside)]
      exact step n hinside ih
    | some e =>
      rw [hq' n e hinside, ← ih e (mem_nodesOf_of_mem (inside?_mem hinside))]
      -- the inner node may be no expression: then the wrapper is kept
      cases hn : n.wrapped? with
      | some e' =>
        obtain ⟨hinside', -⟩ := Option.filter_eq_some_iff.mp hn
        obtain rfl : e = e' := Option.some.inj (hinside.symm.trans hinside')
        rw [bare_of_wrapped? hn]
      | none =>
        rw [bare_of_not_wrapped hn]
        exact hq _ _ (by rw [inside?_withBareParts, hinside]; rfl)

/-- A question without an answer for expressions has the same answer for a node that is bare, if it
has it for one with bare parts. -/
theorem eq_bare_of_no_expression {β : Type} {q : Node → Option β}
    (hnone : ∀ n : Node, n.form.isExpr = true → q n = none) {n : Node}
    (h : q n.withBareParts = q n) : q n.bare = q n := by
  cases hexpr : n.form.isExpr with
  | false => rw [bare_of_form hexpr, h]
  | true => rw [hnone n hexpr, hnone _ ((isExpr_bare n).trans hexpr)]

/-- Unwrapping sees through wrappers, as is its purpose. -/
theorem seesThrough_unwrap : SeesThrough unwrap := by
  intro n e h
  unfold inside? at h
  split at h <;> cases h <;> rfl

/-- What is no wrapper is unwrapped to itself. -/
theorem unwrap_of_inside? {n : Node} (h : n.inside? = none) : n.unwrap = n := by
  unfold unwrap
  split
  case h_6 => rfl
  all_goals cases h

/-- Inside all wrappers there is none. -/
theorem inside?_unwrap (n : Node) : n.unwrap.inside? = none := by
  induction n using induction_below with
  | step n ih =>
    cases hinside : n.inside? with
    | none => rw [unwrap_of_inside? hinside, hinside]
    | some e =>
      rw [seesThrough_unwrap n e hinside, ih e (mem_nodesOf_of_mem (inside?_mem hinside))]

/-- A question that sees through wrappers has the answer for what stands inside all of them. -/
theorem SeesThrough.unwrap {β : Type} {q : Node → β} (hq : SeesThrough q) (n : Node) :
    q n.unwrap = q n := by
  induction n using induction_below with
  | step n ih =>
    cases hinside : n.inside? with
    | none => rw [unwrap_of_inside? hinside]
    | some e =>
      rw [seesThrough_unwrap n e hinside, hq n e hinside,
        ih e (mem_nodesOf_of_mem (inside?_mem hinside))]

/-- What stands inside all wrappers around an expression is the same, with its parts bare. -/
theorem unwrap_bare (e : Node) : e.bare.unwrap = e.unwrap.withBareParts := by
  refine @SeesThrough.bare _ _ (fun n => n.unwrap.withBareParts) seesThrough_unwrap ?_ ?_ e
  · intro n e h
    exact congrArg withBareParts (seesThrough_unwrap n e h)
  · intro n h _
    have hbare : n.withBareParts.inside? = none := by rw [inside?_withBareParts, h]; rfl
    rw [unwrap_of_inside? hbare, unwrap_of_inside? h]

end Syntax.Node

open Syntax Syntax.Node

namespace Expression

/-! ### Kinds -/

/-- The kind of an expression is that of its bare form. -/
theorem kind_bare (e : Node) : kind e.bare = kind e := by
  rw [kind, kind, unwrap_bare]
  rfl

/-- So is the type that is inferred for it. -/
theorem inferredType_bare (e : Option Node) : inferredType (e.map bare) = inferredType e := by
  cases e with
  | none => rfl
  | some e => exact congrArg Kind.typeName (kind_bare e)

/-- So is whether it is markup. -/
theorem isMarkup_bare (e : Node) : isMarkup e.bare = isMarkup e := by
  rw [isMarkup, isMarkup, unwrap_bare]
  rfl

/-! ### Paths -/

/-- A path sees through wrappers. -/
theorem seesThrough_path? : SeesThrough path? := by
  intro n e h
  unfold inside? at h
  split at h <;> cases h <;> rfl

/-- Parentheses, types and non-null marks do not change a path. -/
theorem path?_unwrap (e : Node) : path? e.unwrap = path? e := seesThrough_path?.unwrap e

/-- A selector is no expression, but the key in one may be wrapped. -/
theorem selectorText?_bare (selector : Node) :
    selectorText? selector.bare = selectorText? selector := by
  -- a selector is no expression, so it is left in place with bare parts
  refine eq_bare_of_no_expression ?_ ?_
  · rintro ⟨form, place, parts⟩ h
    cases form
    case word | computed => cases h
    all_goals rfl
  · obtain ⟨form, place, parts⟩ := selector
    cases form
    case computed =>
      match parts with
      | [key] =>
        have hparts : withBareParts ⟨.computed, place, [key]⟩
            = ⟨.computed, place, [key.bare]⟩ := rfl
        rw [hparts, selectorText?, selectorText?, unwrap_bare]
        rfl
      | [] | _ :: _ :: _ => rfl
    all_goals rfl

/-- The path of an expression is that of its bare form, keys and all. -/
theorem path?_bare (e : Node) : path? e.bare = path? e := by
  refine SeesThrough.bare seesThrough_path? seesThrough_path? ?_ e
  rintro ⟨form, place, parts⟩ hinside ih
  cases form
  -- the wrappers are taken off by the induction, so these nodes have the wrong number of parts
  case paren | asConst | nonNull =>
    match parts with
    | [_] => cases hinside
    | [] | _ :: _ :: _ => rfl
  case asType | satisfies =>
    match parts with
    | [_, _] => cases hinside
    | [] | [_] | _ :: _ :: _ :: _ => rfl
  case member =>
    match parts with
    | [object, selector] =>
      have hobject := ih object (first_mem_nodesOf object [selector])
      have hparts : withBareParts ⟨.member, place, [object, selector]⟩
          = ⟨.member, place, [object.bare, selector.bare]⟩ := rfl
      rw [hparts, path?, path?, hobject, selectorText?_bare]
    | [] | [_] | _ :: _ :: _ :: _ => rfl
  all_goals rfl

/-- So is the path of what is called. -/
theorem calleePath?_bare (place : Place) (parts : List Node) :
    calleePath? (bare ⟨.call, place, parts⟩) = calleePath? ⟨.call, place, parts⟩ := by
  cases parts with
  | nil => rfl
  | cons callee rest => exact path?_bare callee

/-! ### Literals -/

/-- A value sees through wrappers. -/
theorem seesThrough_literal? : SeesThrough literal? := by
  intro n e h
  unfold inside? at h
  split at h <;> cases h <;> simp only [literal?]

/-- Parentheses and types stated behind an expression do not matter for its value. -/
theorem literal?_unwrap (e : Node) : literal? e.unwrap = literal? e :=
  seesThrough_literal?.unwrap e

/-- The name of a key is that of its bare form. -/
theorem keyName?_bare (key : Node) : keyName? key.bare = keyName? key := by
  refine eq_bare_of_no_expression ?_ rfl
  rintro ⟨form, place, parts⟩ h
  cases form
  case word | stringKey | numberKey => cases h
  all_goals rfl

/-- The value of an item of an array, unless the item is a hole or a spread. -/
def itemLiteral? (item : Node) : Option Literal :=
  match item with
  | ⟨.item, _, [e]⟩ => literal? e
  | _ => none

/-- The key and the value of a property of an object. -/
def fieldLiteral? (property : Node) : Option (String × Literal) :=
  match property with
  | ⟨.keyed, _, [key, value]⟩ =>
    (keyName? key).bind fun name => (literal? value).map fun v => (name, v)
  | _ => none

/-- Items have values if the first one has and the others have. -/
theorem literalItems?_cons (item : Node) (rest : List Node) :
    literalItems? (item :: rest)
      = (itemLiteral? item).bind fun v => (literalItems? rest).map (v :: ·) := by
  obtain ⟨form, place, parts⟩ := item
  cases form
  case item =>
    match parts with
    | [e] =>
      rw [literalItems?, itemLiteral?]
      cases literal? e <;> cases literalItems? rest <;> rfl
    | [] | _ :: _ :: _ => rfl
  all_goals rfl

/-- Properties have values if the first one has, which is put into the fields for the others. -/
theorem literalFields?_cons (property : Node) (rest : List Node)
    (fields : List (String × Literal)) :
    literalFields? (property :: rest) fields
      = (fieldLiteral? property).bind fun (name, v) =>
          literalFields? rest (Literal.setField name v fields) := by
  obtain ⟨form, place, parts⟩ := property
  cases form
  case keyed =>
    match parts with
    | [key, value] =>
      rw [literalFields?, fieldLiteral?]
      cases keyName? key <;> cases literal? value <;> rfl
    | [] | [_] | _ :: _ :: _ :: _ => rfl
  all_goals rfl

/-- An item has the value of its bare form if its parts have theirs. -/
theorem itemLiteral?_bare {item : Node} (h : ∀ e ∈ item.parts, literal? e.bare = literal? e) :
    itemLiteral? item.bare = itemLiteral? item := by
  refine eq_bare_of_no_expression ?_ ?_
  · rintro ⟨form, place, parts⟩ h
    cases form
    case item => cases h
    all_goals rfl
  · obtain ⟨form, place, parts⟩ := item
    cases form
    case item =>
      match parts, h with
      | [e], h => exact h e List.mem_cons_self
      | [], _ | _ :: _ :: _, _ => rfl
    all_goals rfl

/-- A property has that of its bare form if its parts have theirs. -/
theorem fieldLiteral?_bare {property : Node}
    (h : ∀ e ∈ property.parts, literal? e.bare = literal? e) :
    fieldLiteral? property.bare = fieldLiteral? property := by
  refine eq_bare_of_no_expression ?_ ?_
  · rintro ⟨form, place, parts⟩ h
    cases form
    case keyed => cases h
    all_goals rfl
  · obtain ⟨form, place, parts⟩ := property
    cases form
    case keyed =>
      match parts, h with
      | [key, value], h =>
        change ((keyName? key.bare).bind fun name =>
          (literal? value.bare).map fun v => (name, v)) = _
        rw [keyName?_bare, h value (by simp)]
        rfl
      | [], _ | [_], _ | _ :: _ :: _ :: _, _ => rfl
    all_goals rfl

section Sequences

variable {ns : List Node} (h : ∀ e ∈ nodesOf ns, literal? e.bare = literal? e)
include h

/-- Hence several items have the values of their bare forms. -/
theorem literalItems?_bares : literalItems? (bares ns) = literalItems? ns := by
  induction ns with
  | nil => rfl
  | cons item rest ih =>
    have hitem : ∀ e ∈ item.parts, literal? e.bare = literal? e := fun e he =>
      h e (mem_nodesOf.mpr ⟨item, List.mem_cons_self, mem_nodes_of_below (mem_nodesOf_of_mem he)⟩)
    rw [bares, literalItems?_cons, literalItems?_cons, itemLiteral?_bare hitem,
      ih fun e he => h e (List.mem_append_right _ he)]

/-- So have several properties. -/
theorem literalFields?_bares (fields : List (String × Literal)) :
    literalFields? (bares ns) fields = literalFields? ns fields := by
  induction ns generalizing fields with
  | nil => rfl
  | cons property rest ih =>
    have hproperty : ∀ e ∈ property.parts, literal? e.bare = literal? e := fun e he =>
      h e (mem_nodesOf.mpr
        ⟨property, List.mem_cons_self, mem_nodes_of_below (mem_nodesOf_of_mem he)⟩)
    rw [bares, literalFields?_cons, literalFields?_cons, fieldLiteral?_bare hproperty]
    congr 1
    funext (name, v)
    exact ih (fun e he => h e (List.mem_append_right _ he)) _

end Sequences

/-- **The value of an expression is that of its bare form.** -/
theorem literal?_bare (e : Node) : literal? e.bare = literal? e := by
  refine SeesThrough.bare seesThrough_literal? seesThrough_literal? ?_ e
  rintro ⟨form, place, parts⟩ hinside ih
  cases form
  case paren | asConst | nonNull =>
    match parts with
    | [_] => cases hinside
    | [] | _ :: _ :: _ => rfl
  case asType | satisfies =>
    match parts with
    | [_, _] => cases hinside
    | [] | [_] | _ :: _ :: _ :: _ => rfl
  case unary op =>
    cases op
    case minus =>
      match parts with
      | [e] =>
        have he := ih e (first_mem_nodesOf e [])
        change (literal? e.bare).bind negated? = _
        rw [he, literal?]
      | [] | _ :: _ :: _ => rfl
    all_goals rfl
  -- a template is a literal if it has no part, and the number of parts stays
  case template quasis => cases parts <;> rfl
  case array => exact congrArg (Option.map Literal.array) (literalItems?_bares ih)
  case object => exact congrArg (Option.map Literal.object) (literalFields?_bares ih [])
  all_goals rfl

/-! ### Pieces -/

/-- The pieces of an operand see through wrappers. -/
theorem seesThrough_operandPieces : SeesThrough operandPieces := by
  intro n e h
  unfold inside? at h
  split at h <;> cases h <;> simp only [operandPieces]

/-- They are those of what is inside. -/
theorem operandPieces_unwrap (e : Node) : operandPieces e.unwrap = operandPieces e :=
  seesThrough_operandPieces.unwrap e

/-- A sum in wrappers is a sum. -/
theorem summands?_unwrap (e : Node) : summands? e.unwrap = summands? e := by
  rw [summands?, unwrap_unwrap, ← summands?]

/-- The pieces of an operand are those of its bare form. -/
theorem operandPieces_bare (e : Node) : operandPieces e.bare = operandPieces e := by
  refine SeesThrough.bare seesThrough_operandPieces seesThrough_operandPieces ?_ e
  rintro ⟨form, place, parts⟩ hinside ih
  cases form
  case paren | asConst | nonNull =>
    match parts with
    | [_] => cases hinside
    | [] | _ :: _ :: _ => rfl
  case asType | satisfies =>
    match parts with
    | [_, _] => cases hinside
    | [] | [_] | _ :: _ :: _ :: _ => rfl
  -- the test has no pieces, the two branches keep theirs
  case conditional =>
    match parts with
    | [test, yes, no] =>
      have hyes := ih yes (mem_nodesOf_of_mem (by simp))
      have hno := ih no (mem_nodesOf_of_mem (by simp))
      change operandPieces yes.bare ++ operandPieces no.bare = _
      rw [hyes, hno, operandPieces]
    | [] | [_] | [_, _] | _ :: _ :: _ :: _ :: _ => rfl
  all_goals rfl

/-- The sides of a bare sum are the bare sides. -/
theorem summands?_bare (e : Node) :
    summands? e.bare = (summands? e).map fun (l, r) => (l.bare, r.bare) := by
  rw [summands?, summands?, unwrap_bare]
  obtain ⟨form, place, parts⟩ := e.unwrap
  cases form
  case binary op =>
    cases op
    case add =>
      match parts with
      | [l, r] | [] | [_] | _ :: _ :: _ :: _ => rfl
    all_goals rfl
  all_goals rfl

/-- The pieces of a side are those of its bare form. -/
theorem sidePieces_bare (e : Node) : sidePieces e.bare = sidePieces e := by
  rw [sidePieces, sidePieces, summands?_bare]
  cases summands? e with
  | none => exact operandPieces_bare e
  | some sides => exact congrArg₂ (· ++ ·) (operandPieces_bare sides.1) (operandPieces_bare sides.2)

/-- Hence the pieces of an expression are those of its bare form. -/
theorem pieces_bare (e : Node) : pieces e.bare = pieces e := by
  rw [pieces, pieces, summands?_bare]
  cases summands? e with
  | none => exact operandPieces_bare e
  | some sides => exact congrArg₂ (· ++ ·) (sidePieces_bare sides.1) (sidePieces_bare sides.2)

end Expression

/-- Only the parent of a class is asked for. -/
theorem extendsComponent_bare (cls : Node) : extendsComponent cls.bare = extendsComponent cls := by
  cases hexpr : cls.form.isExpr with
  | false =>
    rw [bare_of_form hexpr]
    obtain ⟨form, place, parts⟩ := cls
    cases form
    case cls =>
      match parts with
      | _ :: parent :: _ =>
        exact congrArg (Option.any componentParents.contains) (Expression.path?_bare parent)
      | [] | [_] => rfl
    all_goals rfl
  | true =>
    -- only a class extends anything
    have hno : ∀ n : Node, n.form.isExpr = true → extendsComponent n = false := by
      rintro ⟨form, place, parts⟩ h
      cases form
      case cls => cases h
      all_goals rfl
    rw [hno cls hexpr, hno _ ((isExpr_bare cls).trans hexpr)]

/-! ### All questions together -/

/-- **The same answers**: whatever is asked of two expressions by their shape is answered alike. -/
structure Expression.SameAnswers (e e' : Node) : Prop where
  /-- The kind of the value. -/
  kind : kind e = kind e'
  /-- The type that an initializer shows. -/
  inferredType : inferredType (some e) = inferredType (some e')
  /-- The value, if the expression is written out in full. -/
  literal : literal? e = literal? e'
  /-- The path of an access. -/
  path : path? e = path? e'
  /-- The fixed pieces of a text. -/
  pieces : pieces e = pieces e'
  /-- The class names among them. -/
  classTokens : classTokens e = classTokens e'
  /-- Whether the expression is markup. -/
  isMarkup : isMarkup e = isMarkup e'

/-- **Wrappers do not matter for what is asked of an expression by its shape.** Taken away at every
depth, so that none is left, they leave all answers as they are. What a call calls is the same, too,
and so is the answer of a class to whether it is a component. -/
theorem Expression.sameAnswers_bare :
    (∀ e : Node, (∀ n ∈ e.bare.nodes, n.wrapped? = none) ∧ SameAnswers e.bare e) ∧
      (∀ (place : Place) (parts : List Node),
        calleePath? (bare ⟨.call, place, parts⟩) = calleePath? ⟨.call, place, parts⟩ ∧
          calleeName? (bare ⟨.call, place, parts⟩) = calleeName? ⟨.call, place, parts⟩) ∧
      ∀ cls : Node, extendsComponent cls.bare = extendsComponent cls := by
  refine ⟨fun e => ⟨wrapped?_of_mem_bare e, ?_⟩, fun place parts => ?_, extendsComponent_bare⟩
  · exact {
      kind := kind_bare e
      inferredType := inferredType_bare (some e)
      literal := literal?_bare e
      path := path?_bare e
      pieces := pieces_bare e
      classTokens := congrArg (List.flatMap Text.words) (pieces_bare e)
      isMarkup := isMarkup_bare e }
  · have hpath := calleePath?_bare place parts
    exact ⟨hpath, congrArg (Option.map lastName) hpath⟩

-- `([null as const])` without its wrappers.
example :
    (bare ⟨.paren, 1, [⟨.array, 2, [⟨.item, 3, [⟨.asConst, 3, [.leaf .null 3]⟩]⟩]⟩]⟩).nodes.map
      Node.form = [.array, .item, .null] := rfl

end JsxWidgets
