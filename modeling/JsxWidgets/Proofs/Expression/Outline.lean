import Mathlib.Data.List.Basic
import JsxWidgets.Proofs.Lowering.Forms

/-!
# Outlines of expressions

Whatever is asked of an expression, nothing inside its markup decides about the answer: of an
element only the tag is ever shown, and of a fragment not even that. The outline of an expression
(`Node.outline`) keeps what is left: it drops the attributes and the children of all markup, and all
places. One lemma for each question says that the outline gives the same answer as the expression.

The proofs go by the form of the expression. Most forms have an answer of their own, which is the
same on both sides by definition; what has to be said is said for the forms that ask further.
-/

namespace JsxWidgets

namespace Syntax

mutual

/-- **The outline of an expression**: without what is inside its markup, and without places. -/
def Node.outline : Node → Node
  | ⟨form, _, parts⟩ =>
    match form, parts with
    | .markup, [⟨.element, _, ⟨.opening tag, _, _⟩ :: _⟩] =>
      ⟨.markup, 0, [⟨.element, 0, [⟨.opening tag, 0, []⟩]⟩]⟩
    | .markup, [⟨.fragment, _, _⟩] => ⟨.markup, 0, [⟨.fragment, 0, []⟩]⟩
    | form, parts => ⟨form, 0, Node.outlines parts⟩

/-- The outlines of several expressions. -/
def Node.outlines : List Node → List Node
  | [] => []
  | n :: ns => n.outline :: Node.outlines ns

end

namespace Node

theorem outlines_eq_map (ns : List Node) : outlines ns = ns.map outline := by
  induction ns with
  | nil => rfl
  | cons n ns ih => rw [outlines, ih, List.map_cons]

@[simp] theorem form_outline (n : Node) : n.outline.form = n.form := by
  obtain ⟨form, place, parts⟩ := n
  unfold outline
  split <;> rfl

/-- Only markup has an outline that is not put together from those of its parts. -/
theorem outline_mk {form : Form} {parts : List Node} (h : form ≠ .markup ∨ parts.length ≠ 1)
    (place : Place) : outline ⟨form, place, parts⟩ = ⟨form, 0, outlines parts⟩ := by
  unfold outline
  split
  · simp at h
  · simp at h
  · rfl

@[simp] theorem length_outlines (ns : List Node) : (outlines ns).length = ns.length := by
  rw [outlines_eq_map, List.length_map]

/-- The outline of markup is markup. -/
theorem outline_markup (place : Place) (parts : List Node) :
    ∃ parts', outline ⟨.markup, place, parts⟩ = ⟨.markup, 0, parts'⟩ := by
  unfold outline
  split <;> exact ⟨_, rfl⟩

/-- The parts of an outline are the outlines of the parts, or an element or a fragment that stands
for another one. -/
theorem outline_parts_cases (n : Node) :
    n.outline.parts = outlines n.parts ∨
      ∃ m m' : Node, n.parts = [m] ∧ n.outline.parts = [m'] ∧ m.form = m'.form ∧
        (m.form = .element ∨ m.form = .fragment) := by
  obtain ⟨form, place, parts⟩ := n
  unfold outline
  split
  · exact Or.inr ⟨_, _, rfl, rfl, rfl, Or.inl rfl⟩
  · exact Or.inr ⟨_, _, rfl, rfl, rfl, Or.inr rfl⟩
  · exact Or.inl rfl

/-- What is the same for a node and its outline, and for two elements and two fragments, is the same
for the parts. -/
theorem map_parts_outline {β : Type} {f : Node → β} (hf : ∀ n, f n.outline = f n)
    (hmarkup : ∀ m m' : Node, m.form = m'.form → m.form = .element ∨ m.form = .fragment →
      f m = f m') (n : Node) : n.outline.parts.map f = n.parts.map f := by
  rcases n.outline_parts_cases with h | ⟨m, m', hm, hm', hform, hkind⟩
  · rw [h, outlines_eq_map, List.map_map]
    exact List.map_congr_left fun m _ => hf m
  · rw [hm, hm', List.map_singleton, List.map_singleton, hmarkup m m' hform hkind]

theorem length_parts_outline (n : Node) : n.outline.parts.length = n.parts.length := by
  rcases n.outline_parts_cases with h | ⟨m, m', hm, hm', -, -⟩
  · rw [h, length_outlines]
  · rw [hm, hm', List.length_singleton, List.length_singleton]

/-- Parentheses and type assertions are the same in the outline. -/
theorem unwrap_outline (e : Node) : e.outline.unwrap = e.unwrap.outline := by
  obtain ⟨form, place, parts⟩ := e
  -- The recursion goes down into what stands in the parentheses.
  cases form
  case paren | asConst | nonNull =>
    match parts with
    | [e] => exact unwrap_outline e
    | [] | _ :: _ :: _ => rfl
  case asType | satisfies =>
    match parts with
    | [e, _] => exact unwrap_outline e
    | [] | [_] | _ :: _ :: _ :: _ => rfl
  case markup =>
    obtain ⟨parts', h⟩ := outline_markup place parts
    rw [h]
    exact h.symm
  all_goals rfl

end Node

end Syntax

open Syntax Expression

namespace Expression

/-! ### Paths -/

/-- The word or the key of a selector is not inside markup. -/
theorem selectorText?_outline (selector : Node) :
    selectorText? selector.outline = selectorText? selector := by
  obtain ⟨form, place, parts⟩ := selector
  cases form
  case computed =>
    match parts with
    | [key] =>
      simp only [Node.outline, Node.outlines, selectorText?, Node.unwrap_outline,
        Node.form_outline]
    | [] | _ :: _ :: _ => rfl
  -- markup has an outline of its own, which is no selector either
  case markup =>
    obtain ⟨parts', h⟩ := Node.outline_markup place parts
    rw [h]
    rfl
  all_goals rfl

/-- Hence neither is a path. -/
theorem path?_outline (e : Node) : path? e.outline = path? e := by
  obtain ⟨form, place, parts⟩ := e
  cases form
  case paren | asConst | nonNull =>
    match parts with
    | [e] => exact path?_outline e
    | [] | _ :: _ :: _ => rfl
  case asType | satisfies =>
    match parts with
    | [e, _] => exact path?_outline e
    | [] | [_] | _ :: _ :: _ :: _ => rfl
  -- The path of a member is that of its object with the text of the selector behind it.
  case member =>
    match parts with
    | [object, selector] =>
      rw [Node.outline_mk (Or.inl (by decide)), Node.outlines, Node.outlines, Node.outlines, path?,
        path?, path?_outline object, selectorText?_outline]
    | [] | [_] | _ :: _ :: _ :: _ => rfl
  case markup =>
    obtain ⟨parts', h⟩ := Node.outline_markup place parts
    rw [h]
    rfl
  all_goals rfl

/-! ### Summaries -/

/-- Nor is a pattern. -/
theorem patternSummary_outline (pattern : Node) :
    patternSummary pattern.outline = patternSummary pattern := by
  obtain ⟨form, place, parts⟩ := pattern
  cases form
  case rest =>
    match parts with
    | [inner, _] => exact congrArg ("..." ++ ·) (patternSummary_outline inner)
    | [] | [_] | _ :: _ :: _ :: _ => rfl
  case defaultPat =>
    match parts with
    | [inner, _] => exact patternSummary_outline inner
    | [] | [_] | _ :: _ :: _ :: _ => rfl
  -- the outline of markup keeps the form, and that is all a pattern looks at
  case markup =>
    obtain ⟨parts', h⟩ := Node.outline_markup place parts
    rw [h]
    rfl
  all_goals rfl

/-- The names of parameters are summarized as their outlines are. -/
theorem map_patternSummary_outline (list : Node) :
    list.outline.parts.map patternSummary = list.parts.map patternSummary := by
  refine Node.map_parts_outline patternSummary_outline ?_ list
  rintro ⟨form, p, ps⟩ ⟨form', p', ps'⟩ (rfl : form = form') (rfl | rfl) <;> rfl

/-- Markup itself is shown by its tag alone. -/
theorem markupSummary_outline (m : Node) : markupSummary m.outline = markupSummary m := by
  obtain ⟨form, place, parts⟩ := m
  cases form
  case element =>
    match parts with
    | [] => rfl
    | ⟨first, p, inner⟩ :: rest =>
      cases first
      case markup =>
        obtain ⟨parts', h⟩ := Node.outline_markup p inner
        rw [Node.outline_mk (Or.inl (by decide)), Node.outlines, h]
        rfl
      all_goals rfl
  case markup =>
    obtain ⟨parts', h⟩ := Node.outline_markup place parts
    rw [h]
    rfl
  all_goals rfl

/-- What markup holds in the outline has the same summary. -/
theorem outline_markup_singleton (place : Place) (m : Node) :
    ∃ m', Node.outline ⟨.markup, place, [m]⟩ = ⟨.markup, 0, [m']⟩ ∧
      markupSummary m' = markupSummary m := by
  unfold Node.outline
  split
  · next heq =>
    cases heq
    exact ⟨_, rfl, rfl⟩
  · next heq =>
    cases heq
    exact ⟨_, rfl, rfl⟩
  · exact ⟨m.outline, rfl, markupSummary_outline m⟩

/-- An expression with the summary of its outline, at all depths. -/
def KeepsSummary (e : Node) : Prop :=
  ∀ room, summaryWithin room e.outline = summaryWithin room e

/-- Expressions are written alike if each of them is. -/
theorem summaries_outlines {es : List Node} (h : ∀ e ∈ es, KeepsSummary e) (room : Nat) :
    summaries room (Node.outlines es) = summaries room es := by
  induction es with
  | nil => rfl
  | cons e es ih =>
    rw [Node.outlines, summaries, summaries, h e List.mem_cons_self room,
      ih fun e' he' => h e' (List.mem_cons_of_mem e he')]

/-- The summary of an item that is one expression. -/
theorem itemSummaries_outlines {items : List Node} (h : ∀ e ∈ Node.nodesOf items, KeepsSummary e)
    (room : Nat) : itemSummaries room (Node.outlines items) = itemSummaries room items := by
  induction items with
  | nil => rfl
  | cons item rest ih =>
    have hrest := ih fun e he => h e (by rw [Node.nodesOf]; exact List.mem_append_right _ he)
    obtain ⟨form, place, parts⟩ := item
    have hitem : ∀ e ∈ parts, KeepsSummary e := fun e he => h e (by
      rw [Node.nodesOf, Node.nodes_mk]
      exact List.mem_append_left _ (List.mem_cons_of_mem _ (Node.mem_nodesOf_of_mem he)))
    cases form
    -- An item or a spread holds one expression; with any other parts it is summarized as nothing.
    case item =>
      rcases parts with _ | ⟨e, _ | ⟨_, _⟩⟩
      · exact congrArg ("" :: ·) hrest
      · exact congrArg₂ List.cons (hitem e List.mem_cons_self room) hrest
      · exact congrArg ("" :: ·) hrest
    case spread =>
      rcases parts with _ | ⟨e, _ | ⟨_, _⟩⟩
      · exact congrArg ("" :: ·) hrest
      · exact congrArg₂ (fun s ss => ("..." ++ s) :: ss) (hitem e List.mem_cons_self room) hrest
      · exact congrArg ("" :: ·) hrest
    case markup =>
      obtain ⟨parts', h⟩ := Node.outline_markup place parts
      rw [Node.outlines, h]
      exact congrArg ("" :: ·) hrest
    all_goals exact congrArg ("" :: ·) hrest

/-- Arguments are summarized as their outlines are. -/
theorem itemSummaries_outline_parts {list : Node}
    (h : ∀ e ∈ Node.nodesOf list.parts, KeepsSummary e) (room : Nat) :
    itemSummaries room list.outline.parts = itemSummaries room list.parts := by
  rcases Node.outline_parts_cases list with hparts | ⟨m, m', hm, hm', hform, hmarkup⟩
  · rw [hparts, itemSummaries_outlines h]
  · rw [hm, hm']
    obtain ⟨f, p, ps⟩ := m
    obtain ⟨f', p', ps'⟩ := m'
    obtain rfl : f = f' := hform
    rcases hmarkup with rfl | rfl <;> rfl

section Calls

variable (room : Nat) (place : Place) (f list types : Node)

theorem summaryWithin_optCall :
    summaryWithin (room + 1) ⟨.optCall, place, [f, list, types]⟩ =
      summaryWithin room f ++ "?.(" ++ ", ".intercalate (itemSummaries room list.parts)
        ++ ")" := by
  cases list
  rfl

theorem summaryWithin_construct :
    summaryWithin (room + 1) ⟨.construct, place, [f, list, types]⟩ =
      "new " ++ summaryWithin room f ++ "(" ++ ", ".intercalate (itemSummaries room list.parts)
        ++ ")" := by
  cases list
  rfl

/-- What is called is the constructor of the parent class, the import of a module, or a function. -/
theorem summaryWithin_call :
    summaryWithin (room + 1) ⟨.call, place, [f, list, types]⟩ =
      (match f.form with
        | .superCallee => "super"
        | .importCallee => "import"
        | _ => summaryWithin room f)
        ++ "(" ++ ", ".intercalate (itemSummaries room list.parts) ++ ")" := by
  obtain ⟨form, p, parts⟩ := f
  cases list
  cases form <;> rfl

end Calls

/-- A call has three parts, and nothing else is summarized as one. -/
theorem summaryWithin_eq_ellipsis {form : Form} {parts : List Node}
    (hform : form = .call ∨ form = .optCall ∨ form = .construct) (h : parts.length ≠ 3)
    (room : Nat) (place : Place) : summaryWithin (room + 1) ⟨form, place, parts⟩ = ellipsis := by
  -- A call asks for the form of what is called before it looks at the other parts.
  match parts, h with
  | [], _ => rcases hform with rfl | rfl | rfl <;> rfl
  | [⟨first, p, ps⟩], _ =>
    rcases hform with rfl | rfl | rfl
    · cases first <;> rfl
    · rfl
    · rfl
  | [⟨first, p, ps⟩, ⟨second, q, qs⟩], _ =>
    rcases hform with rfl | rfl | rfl
    · cases first <;> rfl
    · rfl
    · rfl
  | ⟨first, p, ps⟩ :: ⟨second, q, qs⟩ :: _ :: _ :: _, _ =>
    rcases hform with rfl | rfl | rfl
    · cases first <;> rfl
    · rfl
    · rfl

/-- The summary of a call goes by its form and its arguments, and by what is called. -/
theorem summaryWithin_outline_call {form : Form}
    (hform : form = .call ∨ form = .optCall ∨ form = .construct) {parts : List Node}
    (h : ∀ e ∈ Node.nodesOf parts, KeepsSummary e) (room : Nat) (place : Place) :
    summaryWithin (room + 1) ⟨form, 0, Node.outlines parts⟩
      = summaryWithin (room + 1) ⟨form, place, parts⟩ := by
  -- a call that has not its three parts is cut short on both sides
  by_cases hlength : parts.length = 3
  · obtain ⟨f, list, types, rfl⟩ := List.length_eq_three.mp hlength
    have hf := h f (Node.mem_nodesOf_of_mem List.mem_cons_self) room
    have hlist : ∀ e ∈ Node.nodesOf list.parts, KeepsSummary e := fun e he =>
      h e (Node.mem_nodesOf.mpr ⟨list, List.mem_cons_of_mem f List.mem_cons_self,
        Node.mem_nodes_iff.mpr (Or.inr he)⟩)
    have hargs := itemSummaries_outline_parts hlist room
    rw [Node.outlines, Node.outlines, Node.outlines, Node.outlines]
    rcases hform with rfl | rfl | rfl
    · rw [summaryWithin_call, summaryWithin_call, Node.form_outline, hargs, hf]
    · rw [summaryWithin_optCall, summaryWithin_optCall, hargs, hf]
    · rw [summaryWithin_construct, summaryWithin_construct, hargs, hf]
  · rw [summaryWithin_eq_ellipsis hform hlength,
      summaryWithin_eq_ellipsis hform (by rwa [Node.length_outlines])]

/-- An access has two parts, and nothing else is summarized as one. -/
theorem summaryWithin_access_eq_ellipsis {form : Form} (hform : form = .member ∨ form = .optMember)
    {parts : List Node} (h : parts.length ≠ 2) (room : Nat) (place : Place) :
    summaryWithin (room + 1) ⟨form, place, parts⟩ = ellipsis := by
  match parts, h with
  | [], _ | [_], _ => rcases hform with rfl | rfl <;> rfl
  | _ :: ⟨selector, p, ps⟩ :: _ :: _, _ =>
    cases selector
    case computed =>
      match ps with
      | [] | [_] | _ :: _ :: _ => rcases hform with rfl | rfl <;> rfl
    all_goals rcases hform with rfl | rfl <;> rfl

/-- The summary of an access goes by the summary of the object and by the selector. -/
theorem summaryWithin_outline_access {form : Form} (hform : form = .member ∨ form = .optMember)
    {parts : List Node} (h : ∀ e ∈ Node.nodesOf parts, KeepsSummary e) (room : Nat)
    (place : Place) :
    summaryWithin (room + 1) ⟨form, 0, Node.outlines parts⟩
      = summaryWithin (room + 1) ⟨form, place, parts⟩ := by
  by_cases hlength : parts.length = 2
  · obtain ⟨object, ⟨selector, p, ps⟩, rfl⟩ := List.length_eq_two.mp hlength
    have hobject := h object (Node.mem_nodesOf_of_mem List.mem_cons_self) room
    -- The outline keeps a word and a hidden name, and outlines a key.
    cases selector
    case word t =>
      rcases hform with rfl | rfl
      · exact congrArg (· ++ "." ++ t) hobject
      · exact congrArg (· ++ "?." ++ t) hobject
    case hidden t =>
      rcases hform with rfl | rfl
      · exact congrArg (· ++ ".#" ++ t) hobject
      · exact congrArg (· ++ "?.#" ++ ellipsis) hobject
    case computed =>
      match ps, h with
      | [], _ | _ :: _ :: _, _ => rcases hform with rfl | rfl <;> rfl
      | [k], h =>
        have hk := h k (Node.mem_nodesOf.mpr ⟨_, List.mem_cons_of_mem object List.mem_cons_self,
          Node.mem_nodes_iff.mpr (Or.inr (Node.mem_nodesOf_of_mem List.mem_cons_self))⟩) room
        rcases hform with rfl | rfl
        · exact congrArg₂ (fun o s => o ++ "[" ++ s ++ "]") hobject hk
        · exact congrArg₂ (fun o s => o ++ "?.[" ++ s ++ "]") hobject hk
    case markup =>
      obtain ⟨ps', hps⟩ := Node.outline_markup p ps
      rw [Node.outlines, Node.outlines, hps]
      rcases hform with rfl | rfl <;> rfl
    all_goals rcases hform with rfl | rfl <;> rfl
  · rw [summaryWithin_access_eq_ellipsis hform hlength,
      summaryWithin_access_eq_ellipsis hform (by rwa [Node.length_outlines])]

theorem summaryWithin_arrow (room : Nat) (place : Place) (params result : Node)
    (rest : List Node) :
    summaryWithin (room + 1) ⟨.arrow, place, params :: result :: rest⟩ =
      "(" ++ ", ".intercalate (params.parts.map patternSummary) ++ ") => " ++
        match result.form with
        | .body => elidedBlock
        | _ => summaryWithin room result := by
  obtain ⟨form, p, parts⟩ := result
  cases params
  cases form <;> rfl

/-- Without a body there is no arrow function. -/
theorem summaryWithin_arrow_eq_ellipsis {parts : List Node} (h : parts.length < 2) (room : Nat)
    (place : Place) : summaryWithin (room + 1) ⟨.arrow, place, parts⟩ = ellipsis := by
  match parts, h with
  | [], _ => rfl
  | [⟨_, _, _⟩], _ => rfl

/-- Of a function only the name is shown. -/
theorem summaryWithin_functionExpr (room : Nat) (place : Place) (name : Node) (rest : List Node) :
    summaryWithin (room + 1) ⟨.functionExpr, place, name :: rest⟩ =
      match name.form with
      | .binder t => "function " ++ t ++ "() " ++ elidedBlock
      | _ => "function() " ++ elidedBlock := by
  obtain ⟨form, p, parts⟩ := name
  cases form <;> rfl

/-- The text of the target of an assignment. -/
def targetSummary (room : Nat) : Node → String
  | ⟨.binder t, _, _⟩ => t
  | ⟨.target, _, [m]⟩ => if m.form = .member then summaryWithin room m else ellipsis
  | _ => ellipsis

theorem summaryWithin_assign (room : Nat) (place : Place) (op : AssignOp) (target value : Node) :
    summaryWithin (room + 1) ⟨.assign op, place, [target, value]⟩ =
      targetSummary room target ++ " " ++ op.text ++ " " ++ summaryWithin room value := by
  obtain ⟨form, p, parts⟩ := target
  cases form
  case target =>
    match parts with
    | [] => rfl
    | [⟨inner, q, qs⟩] | ⟨inner, q, qs⟩ :: _ :: _ => cases inner <;> rfl
  all_goals rfl

/-- An assignment has two parts. -/
theorem summaryWithin_assign_eq_ellipsis {parts : List Node} (h : parts.length ≠ 2) (room : Nat)
    (place : Place) (op : AssignOp) :
    summaryWithin (room + 1) ⟨.assign op, place, parts⟩ = ellipsis := by
  match parts, h with
  | [], _ => rfl
  | [⟨form, p, ps⟩], _ | ⟨form, p, ps⟩ :: _ :: _ :: _, _ =>
    cases form
    case target =>
      match ps with
      | [] => rfl
      | [⟨inner, _, _⟩] | ⟨inner, _, _⟩ :: _ :: _ => cases inner <;> rfl
    all_goals rfl

/-- The target of an assignment is written alike if its parts are. -/
theorem targetSummary_outline {target : Node} (h : ∀ e ∈ target.parts, KeepsSummary e)
    (room : Nat) : targetSummary room target.outline = targetSummary room target := by
  obtain ⟨form, p, parts⟩ := target
  cases form
  case target =>
    match parts, h with
    | [], _ | _ :: _ :: _, _ => rfl
    -- only the member of a target is an expression to be summarised
    | [m], h =>
      have hm := h m List.mem_cons_self room
      rw [Node.outline_mk (Or.inl (by decide)), Node.outlines, Node.outlines, targetSummary,
        targetSummary, Node.form_outline, hm]
  case markup =>
    obtain ⟨parts', h⟩ := Node.outline_markup p parts
    rw [h]
    rfl
  all_goals rfl

/-- The summary of an assignment goes by its target and by the summary of the value. -/
theorem summaryWithin_outline_assign {parts : List Node}
    (h : ∀ e ∈ Node.nodesOf parts, KeepsSummary e) (room : Nat) (place : Place) (op : AssignOp) :
    summaryWithin (room + 1) ⟨.assign op, 0, Node.outlines parts⟩
      = summaryWithin (room + 1) ⟨.assign op, place, parts⟩ := by
  -- an assignment that has not its two parts is cut short on both sides
  by_cases hlength : parts.length = 2
  · obtain ⟨target, value, rfl⟩ := List.length_eq_two.mp hlength
    have hvalue := h value
      (Node.mem_nodesOf_of_mem (List.mem_cons_of_mem target List.mem_cons_self)) room
    have hinside : ∀ e ∈ target.parts, KeepsSummary e := fun e he =>
      h e (Node.mem_nodesOf.mpr ⟨target, List.mem_cons_self,
        Node.mem_nodes_iff.mpr (Or.inr (Node.mem_nodesOf_of_mem he))⟩)
    have htarget := targetSummary_outline hinside room
    rw [Node.outlines, Node.outlines, Node.outlines, summaryWithin_assign, summaryWithin_assign,
      htarget, hvalue]
  · rw [summaryWithin_assign_eq_ellipsis hlength,
      summaryWithin_assign_eq_ellipsis (by rwa [Node.length_outlines])]

/-- The summary of an arrow function goes by the names of its parameters and by its result. -/
theorem summaryWithin_outline_arrow {parts : List Node}
    (h : ∀ e ∈ Node.nodesOf parts, KeepsSummary e) (room : Nat) (place : Place) :
    summaryWithin (room + 1) ⟨.arrow, 0, Node.outlines parts⟩
      = summaryWithin (room + 1) ⟨.arrow, place, parts⟩ := by
  match parts, h with
  | [], _ => rfl
  | [params], _ =>
    rw [summaryWithin_arrow_eq_ellipsis (by simp), summaryWithin_arrow_eq_ellipsis (by simp)]
  | params :: result :: rest, h =>
    have hresult := h result
      (Node.mem_nodesOf_of_mem (List.mem_cons_of_mem params List.mem_cons_self)) room
    rw [Node.outlines, Node.outlines, summaryWithin_arrow, summaryWithin_arrow,
      map_patternSummary_outline, Node.form_outline, hresult]

/-- **The outline of an expression has its summary.** -/
theorem keepsSummary (e : Node) : KeepsSummary e := by
  induction e using Node.induction_below with
  | step e ih =>
    intro room
    obtain ⟨form, place, parts⟩ := e
    match room with
    | 0 =>
      -- Without room both are cut off.
      cases Node.outline ⟨form, place, parts⟩
      rfl
    | room + 1 =>
    -- A part is summarized as its outline is.
    have hpart : ∀ e ∈ parts, KeepsSummary e := fun e he => ih e (Node.mem_nodesOf_of_mem he)
    cases form
    case paren =>
      match parts with
      | [e] => exact congrArg ("(" ++ · ++ ")") (hpart e List.mem_cons_self room)
      | [] | _ :: _ :: _ => rfl
    case call => exact summaryWithin_outline_call (Or.inl rfl) ih room place
    case optCall => exact summaryWithin_outline_call (Or.inr (Or.inl rfl)) ih room place
    case construct => exact summaryWithin_outline_call (Or.inr (Or.inr rfl)) ih room place
    case member => exact summaryWithin_outline_access (Or.inl rfl) ih room place
    case optMember => exact summaryWithin_outline_access (Or.inr rfl) ih room place
    case unary op =>
      match parts with
      | [e] =>
        exact congrArg (op.text ++ (if op.isWord then " " else "") ++ ·)
          (hpart e List.mem_cons_self room)
      | [] | _ :: _ :: _ => rfl
    case update op inFront =>
      match parts with
      | [e] =>
        exact congrArg (fun s => if inFront then op.text ++ s else s ++ op.text)
          (hpart e List.mem_cons_self room)
      | [] | _ :: _ :: _ => rfl
    case await =>
      match parts with
      | [e] => exact congrArg ("await " ++ ·) (hpart e List.mem_cons_self room)
      | [] | _ :: _ :: _ => rfl
    case nonNull =>
      match parts with
      | [e] => exact congrArg (· ++ "!") (hpart e List.mem_cons_self room)
      | [] | _ :: _ :: _ => rfl
    case asConst =>
      match parts with
      | [e] => exact hpart e List.mem_cons_self (room + 1)
      | [] | _ :: _ :: _ => rfl
    case asType | satisfies =>
      match parts with
      | [e, _] => exact hpart e List.mem_cons_self (room + 1)
      | [] | [_] | _ :: _ :: _ :: _ => rfl
    case binary op =>
      match parts with
      | [l, r] =>
        exact congrArg₂ (· ++ " " ++ op.text ++ " " ++ ·) (hpart l List.mem_cons_self room)
          (hpart r (List.mem_cons_of_mem l List.mem_cons_self) room)
      | [] | [_] | _ :: _ :: _ :: _ => rfl
    case conditional =>
      match parts with
      | [test, yes, no] =>
        have hyes := hpart yes (by simp) room
        have hno := hpart no (by simp) room
        exact congrArg₂ (· ++ " : " ++ ·)
          (congrArg₂ (· ++ " ? " ++ ·) (hpart test List.mem_cons_self room) hyes) hno
      | [] | [_] | [_, _] | _ :: _ :: _ :: _ :: _ => rfl
    case assign op => exact summaryWithin_outline_assign ih room place op
    case template quasis =>
      exact congrArg (fun ss => "`" ++ interleave quasis ss ++ "`") (summaries_outlines hpart room)
    case sequence =>
      exact congrArg (", ".intercalate ·) (summaries_outlines hpart room)
    case array =>
      match parts with
      | [] | _ :: _ :: _ :: _ :: _ => rfl
      | [_] | [_, _] | [_, _, _] =>
        exact congrArg (fun ss => "[" ++ ", ".intercalate ss ++ "]")
          (itemSummaries_outlines ih room)
    case object => cases parts <;> rfl
    case functionExpr =>
      match parts with
      | [] => rfl
      | name :: rest =>
        change summaryWithin (room + 1)
          ⟨.functionExpr, 0, name.outline :: Node.outlines rest⟩ = _
        rw [summaryWithin_functionExpr, summaryWithin_functionExpr, Node.form_outline]
    case arrow => exact summaryWithin_outline_arrow ih room place
    case markup =>
      match parts with
      | [] => rfl
      | _ :: _ :: _ => rw [Node.outline_mk (Or.inr (by simp))]; rfl
      | [m] =>
        obtain ⟨m', h, hm⟩ := outline_markup_singleton place m
        rw [h]
        exact hm
    all_goals rfl

end Expression

end JsxWidgets
