import JsxWidgets.Proofs.Expression.SummaryPieces

/-!
# The levels of an expression that a summary shows

A summary is short because it does not go deeper than seven levels. What that means is said here
without the summary: `Node.top` cuts an expression off below a number of levels and leaves a mark at
each place where something was.

Operands, callees and arguments, objects and keys, items, substitutions, what stands in parentheses
and the result of an arrow function are one level deeper. What stands in front of a type is not, and
the type is taken away. So are the parts of an expression that a summary has one sign for: the body
of a function, the properties of an object, the items of an array with more than three of them, what
markup holds, and the places in the source.

`summaryWithin_top` is the law for any number of levels. It goes up from the deepest level by
`spelled_summaryPieces_firstLevel`, which is the law for one level: the pieces of a summary are the
same if the expressions one level deeper are written alike. With the levels of a summary it says
that two expressions that are equal down to there have one summary (`summary_eq_of_top_eq`).
-/

namespace JsxWidgets

open Syntax

namespace Syntax.Node

/-! ### Cutting off -/

/-- What stands for something that was cut off. -/
def mark : Node := .leaf .invalid 0

section Parts

variable (f : Node → Node)

/-- An item of an array or an argument of a call, with its expression replaced. -/
def itemTop : Node → Node
  | ⟨.spread, _, [e]⟩ => ⟨.spread, 0, [f e]⟩
  | ⟨.item, _, [e]⟩ => ⟨.item, 0, [f e]⟩
  | ⟨form, _, _⟩ => .leaf form 0

/-- What is selected of an object, with the key replaced. -/
def selectorTop : Node → Node
  | ⟨.computed, _, [k]⟩ => ⟨.computed, 0, [f k]⟩
  | ⟨form, _, _⟩ => .leaf form 0

/-- What is called, replaced if it is an expression. -/
def calleeTop (callee : Node) : Node :=
  match callee.form with
  | .superCallee => .leaf .superCallee 0
  | .importCallee => .leaf .importCallee 0
  | _ => f callee

/-- The target of an assignment, replaced if it is a member. -/
def targetTop : Node → Node
  | ⟨.target, _, [m]⟩ => if m.form = .member then ⟨.target, 0, [f m]⟩ else .leaf .target 0
  | ⟨form, _, _⟩ => .leaf form 0

/-- The result of an arrow function, replaced if it is an expression. -/
def resultTop (result : Node) : Node :=
  match result.form with
  | .body => .leaf .body 0
  | _ => f result

/-- A pattern without types, defaults and what stands in brackets. -/
def patternTop : Node → Node
  | ⟨.rest, _, [pattern, _]⟩ => ⟨.rest, 0, [patternTop pattern, mark]⟩
  | ⟨.defaultPat, _, [pattern, _]⟩ => ⟨.defaultPat, 0, [patternTop pattern, mark]⟩
  | ⟨form, _, _⟩ => .leaf form 0

/-- Markup without attributes and children. -/
def markupTop : Node → Node
  | ⟨.element, _, ⟨.opening tag, _, _⟩ :: _⟩ => ⟨.element, 0, [.leaf (.opening tag) 0]⟩
  | ⟨form, _, _⟩ => .leaf form 0

/-- **The first level of an expression**, with the expressions one level deeper replaced and all
else that is no part of it taken away. -/
def firstLevel : Node → Node
  | ⟨form, _, parts⟩ =>
    match form, parts with
    | .member, [o, selector] => ⟨.member, 0, [f o, selectorTop f selector]⟩
    | .optMember, [o, selector] => ⟨.optMember, 0, [f o, selectorTop f selector]⟩
    | .call, [callee, args, _] =>
      ⟨.call, 0, [calleeTop f callee, .list (args.parts.map (itemTop f)), mark]⟩
    | .optCall, [callee, args, _] =>
      ⟨.optCall, 0, [f callee, .list (args.parts.map (itemTop f)), mark]⟩
    | .construct, [callee, args, _] =>
      ⟨.construct, 0, [f callee, .list (args.parts.map (itemTop f)), mark]⟩
    | .assign op, [target, e] => ⟨.assign op, 0, [targetTop f target, f e]⟩
    | .arrow, params :: result :: _ =>
      ⟨.arrow, 0, [.list (params.parts.map patternTop), resultTop f result]⟩
    | .functionExpr, ⟨.binder t, _, _⟩ :: _ => ⟨.functionExpr, 0, [.leaf (.binder t) 0]⟩
    | .object, _ :: _ => ⟨.object, 0, [mark]⟩
    | .array, _ :: _ :: _ :: _ :: _ => ⟨.array, 0, [mark, mark, mark, mark]⟩
    | .array, items => ⟨.array, 0, items.map (itemTop f)⟩
    | .markup, [m] => ⟨.markup, 0, [markupTop m]⟩
    | .asType, [e, _] => ⟨.asType, 0, [firstLevel e, mark]⟩
    | .satisfies, [e, _] => ⟨.satisfies, 0, [firstLevel e, mark]⟩
    | .asConst, [e] => ⟨.asConst, 0, [firstLevel e]⟩
    | .paren, parts | .nonNull, parts | .await, parts | .unary _, parts | .update .., parts
    | .binary _, parts | .conditional, parts | .template _, parts | .sequence, parts =>
      ⟨form, 0, parts.map f⟩
    | form, _ => .leaf form 0

end Parts

/-- **The top of an expression**, cut off below a number of levels. -/
def top : Nat → Node → Node
  | 0, _ => mark
  | levels + 1, e => firstLevel (top levels) e

theorem form_firstLevel (f : Node → Node) (e : Node) : (firstLevel f e).form = e.form := by
  obtain ⟨form, place, parts⟩ := e
  unfold firstLevel
  split <;> rfl

end Syntax.Node

namespace Expression

open Syntax.Node Piece

/-! ### One level -/

/-- A piece with the expression in it replaced. -/
def Piece.replaced (f : Node → Node) : Piece → Piece
  | .inner e => .inner (f e)
  | p => p

section OneLevel

/-! The expressions one level deeper are replaced by others that are written alike. Each keeps its
form or becomes a mark, which is an ellipsis. -/

variable {f : Node → Node} {write write' : Node → String}
  (hform : ∀ e, (f e).form = e.form ∨ f e = mark) (hwrite : ∀ e, write' (f e) = write e)
  (hmark : write' mark = ellipsis)

section Parts

include hwrite

theorem spelled_map_replaced (ps : List Piece) :
    spelled write' (ps.map (Piece.replaced f)) = spelled write ps := by
  induction ps with
  | nil => rfl
  | cons p ps ih =>
    have hpiece : (p.replaced f).text write' = p.text write := by
      cases p with
      | inner e => exact hwrite e
      | fixed | shown | quoted => rfl
    rw [List.map_cons, spelled, spelled, hpiece, ih]

theorem spelled_itemPieces_itemTop (i : Node) :
    spelled write' (itemPieces (itemTop f i)) = spelled write (itemPieces i) := by
  obtain ⟨form, place, parts⟩ := i
  cases form
  case item =>
    match parts with
    | [e] => exact spelled_map_replaced hwrite [.inner e]
    | [] | _ :: _ :: _ => rfl
  case spread =>
    match parts with
    | [e] => exact spelled_map_replaced hwrite [.fixed "...", .inner e]
    | [] | _ :: _ :: _ => rfl
  all_goals rfl

theorem spelled_listPieces_itemTop (items : List Node) :
    spelled write' (listPieces (items.map (itemTop f))) = spelled write (listPieces items) := by
  rw [listPieces, listPieces, spelled_commaSeparated, spelled_commaSeparated, List.map_map,
    List.map_map, List.map_map]
  congr 1
  exact List.map_congr_left fun i _ => spelled_itemPieces_itemTop hwrite i

theorem spelled_memberPieces_selectorTop (o selector : Node) :
    spelled write' (memberPieces (f o) (selectorTop f selector)) =
        spelled write (memberPieces o selector) ∧
      spelled write' (optMemberPieces (f o) (selectorTop f selector)) =
        spelled write (optMemberPieces o selector) := by
  obtain ⟨form, place, parts⟩ := selector
  -- The pieces are those of the access itself, with the object and the key replaced.
  have hpieces := spelled_map_replaced hwrite
  cases form
  case word t =>
    exact ⟨hpieces [.inner o, .fixed ".", .shown t], hpieces [.inner o, .fixed "?.", .shown t]⟩
  case hidden t =>
    exact ⟨hpieces [.inner o, .fixed ".#", .shown t],
      hpieces [.inner o, .fixed ("?.#" ++ ellipsis)]⟩
  case computed =>
    match parts with
    | [k] =>
      exact ⟨hpieces [.inner o, .fixed "[", .inner k, .fixed "]"],
        hpieces [.inner o, .fixed "?.[", .inner k, .fixed "]"]⟩
    | [] | _ :: _ :: _ => exact ⟨rfl, rfl⟩
  all_goals exact ⟨rfl, rfl⟩

theorem spelled_templatePieces_map (quasis : List Quasi) (holes : List Node) :
    spelled write' (templatePieces quasis (holes.map f)) =
      spelled write (templatePieces quasis holes) := by
  fun_induction templatePieces quasis holes with
  | case1 => rfl
  | case2 q qs ih => simp only [List.map_nil] at ih ⊢; simp only [templatePieces, spelled, text, ih]
  | case3 q qs e es ih =>
    simp only [List.map_cons, templatePieces, spelled_append, spelled, text, hwrite, ih]

theorem spelled_commaSeparated_map (es : List Node) :
    spelled write' (commaSeparated ((es.map f).map fun e => [.inner e])) =
      spelled write (commaSeparated (es.map fun e => [.inner e])) := by
  rw [spelled_commaSeparated, spelled_commaSeparated, List.map_map, List.map_map, List.map_map]
  congr 1
  refine List.map_congr_left fun e _ => ?_
  simp only [Function.comp_apply, spelled, text, hwrite]

include hform

theorem spelled_calleePieces_calleeTop (callee : Node) :
    spelled write' (calleePieces (calleeTop f callee)) = spelled write (calleePieces callee) := by
  have hinner : ∀ n : Node, n.form ≠ .superCallee → n.form ≠ .importCallee →
      calleePieces n = [.inner n] := fun n hsuper himport => by
    unfold calleePieces
    split
    · exact absurd ‹_› hsuper
    · exact absurd ‹_› himport
    · rfl
  unfold calleeTop
  split
  -- What is no expression is kept; an expression does not become one of these.
  next h => simp only [calleePieces, leaf, h, spelled, text]
  next h => simp only [calleePieces, leaf, h, spelled, text]
  next hsuper himport =>
    have hkept : (f callee).form ≠ .superCallee ∧ (f callee).form ≠ .importCallee := by
      rcases hform callee with h | h <;> rw [h]
      · exact ⟨hsuper, himport⟩
      · decide
    rw [hinner _ hkept.1 hkept.2, hinner _ hsuper himport, spelled_singleton, spelled_singleton,
      text,
      text, hwrite]

theorem spelled_resultPieces_resultTop (result : Node) :
    spelled write' (resultPieces (resultTop f result)) = spelled write (resultPieces result) := by
  -- only a block is spelled by other pieces than itself
  have hinner : ∀ n : Node, n.form ≠ .body → resultPieces n = [.inner n] := fun n hbody => by
    unfold resultPieces
    split
    · exact absurd ‹_› hbody
    · rfl
  unfold resultTop
  split
  next h => simp only [resultPieces, leaf, h, spelled, text]
  next hbody =>
    have hkept : (f result).form ≠ .body := by
      rcases hform result with h | h <;> rw [h]
      · exact hbody
      · decide
    rw [hinner _ hkept, hinner _ hbody, spelled_singleton, spelled_singleton, text, text, hwrite]

include hmark

/-- A member that was cut off is an ellipsis as well. -/
theorem spelled_targetPieces_targetTop (target : Node) :
    spelled write' (targetPieces (targetTop f target)) = spelled write (targetPieces target) := by
  obtain ⟨form, place, parts⟩ := target
  cases form
  case target =>
    match parts with
    | [m] =>
      -- a member is spelled out, a pattern in its place is not
      by_cases hmember : m.form = .member
      · rw [targetTop, if_pos hmember, targetPieces, targetPieces, if_pos hmember,
          spelled_singleton, text, ← hwrite m]
        rcases hform m with h | h
        · rw [h, if_pos hmember, spelled_singleton, text]
        · rw [h, if_neg (by decide), spelled_singleton, text, hmark]
      · rw [targetTop, if_neg hmember, targetPieces, if_neg hmember]
        rfl
    | [] | _ :: _ :: _ => rfl
  all_goals rfl

end Parts

/-! Patterns and markup have no expressions in them that a summary shows. -/

theorem spelled_patternPieces_patternTop (write write' : Node → String) (pattern : Node) :
    spelled write' (patternPieces (patternTop pattern))
      = spelled write (patternPieces pattern) := by
  fun_induction patternTop pattern with
  | case1 _ pattern _ ih => simp only [patternPieces, spelled, text, ih]
  | case2 _ pattern _ ih => rw [patternPieces, patternPieces, ih]
  | case3 form place parts hrest hdefault =>
    cases form
    -- the pieces of a rest are those of its pattern when it has two parts
    case rest =>
      rcases parts with _ | ⟨a, _ | ⟨b, _ | ⟨c, parts⟩⟩⟩
      · rfl
      · rfl
      · exact absurd rfl (hrest a b rfl)
      · rfl
    case defaultPat =>
      rcases parts with _ | ⟨a, _ | ⟨b, _ | ⟨c, parts⟩⟩⟩
      · rfl
      · rfl
      · exact absurd rfl (hdefault a b rfl)
      · rfl
    all_goals rfl

theorem spelled_markupPieces_markupTop (write write' : Node → String) (m : Node) :
    spelled write' (markupPieces (markupTop m)) = spelled write (markupPieces m) := by
  obtain ⟨form, place, parts⟩ := m
  cases form
  case element =>
    match parts with
    | [] => rfl
    | ⟨tag, _, _⟩ :: _ => cases tag <;> rfl
  all_goals rfl

include hform hwrite hmark

/-- **One level**: the summary of the first level with other expressions below it that are written
alike is spelled by the same texts. -/
theorem spelled_summaryPieces_firstLevel (e : Node) :
    spelled write' (summaryPieces (firstLevel f e)) = spelled write (summaryPieces e) := by
  have hpieces := spelled_map_replaced hwrite
  -- Arguments and items stand between other pieces and a closing sign.
  have hlist (front : List Piece) (items : List Node) (close : String) :
      spelled write' (front.map (Piece.replaced f) ++ listPieces (items.map (itemTop f))
        ++ [.fixed close]) = spelled write (front ++ listPieces items ++ [.fixed close]) := by
    simp only [spelled_append, hpieces, spelled_listPieces_itemTop hwrite]
    rfl
  obtain ⟨form, place, parts⟩ := e
  cases form
  case paren =>
    match parts with
    | [e] => exact hpieces [.fixed "(", .inner e, .fixed ")"]
    | [] | _ :: _ :: _ => rfl
  case nonNull =>
    match parts with
    | [e] => exact hpieces [.inner e, .fixed "!"]
    | [] | _ :: _ :: _ => rfl
  case await =>
    match parts with
    | [e] => exact hpieces [.fixed "await ", .inner e]
    | [] | _ :: _ :: _ => rfl
  case unary op =>
    match parts with
    | [e] => exact hpieces [.fixed (op.text ++ if op.isWord then " " else ""), .inner e]
    | [] | _ :: _ :: _ => rfl
  case update op inFront =>
    match parts, inFront with
    | [e], true => exact hpieces [.fixed op.text, .inner e]
    | [e], false => exact hpieces [.inner e, .fixed op.text]
    | [], _ | _ :: _ :: _, _ => rfl
  case binary op =>
    match parts with
    | [l, r] => exact hpieces [.inner l, .fixed (" " ++ op.text ++ " "), .inner r]
    | [] | [_] | _ :: _ :: _ :: _ => rfl
  case conditional =>
    match parts with
    | [test, yes, no] =>
      exact hpieces [.inner test, .fixed " ? ", .inner yes, .fixed " : ", .inner no]
    | [] | [_] | [_, _] | _ :: _ :: _ :: _ :: _ => rfl
  case template quasis =>
    change spelled write' ([.fixed "`"] ++ templatePieces quasis (parts.map f) ++ [.fixed "`"]) =
      spelled write ([.fixed "`"] ++ templatePieces quasis parts ++ [.fixed "`"])
    simp only [spelled_append, spelled_templatePieces_map hwrite]
    rfl
  case sequence => exact spelled_commaSeparated_map hwrite parts
  case member =>
    match parts with
    | [o, selector] => exact (spelled_memberPieces_selectorTop hwrite o selector).1
    | [] | [_] | _ :: _ :: _ :: _ => rfl
  case optMember =>
    match parts with
    | [o, selector] => exact (spelled_memberPieces_selectorTop hwrite o selector).2
    | [] | [_] | _ :: _ :: _ :: _ => rfl
  case call =>
    match parts with
    | [callee, args, _] =>
      change spelled write' (calleePieces (calleeTop f callee) ++ [.fixed "("]
          ++ listPieces (args.parts.map (itemTop f)) ++ [.fixed ")"]) =
        spelled write (calleePieces callee ++ [.fixed "("] ++ listPieces args.parts ++ [.fixed ")"])
      simp only [spelled_append, spelled_calleePieces_calleeTop hform hwrite,
        spelled_listPieces_itemTop hwrite]
      rfl
    | [] | [_] | [_, _] | _ :: _ :: _ :: _ :: _ => rfl
  case optCall =>
    match parts with
    | [callee, args, _] => exact hlist [.inner callee, .fixed "?.("] args.parts ")"
    | [] | [_] | [_, _] | _ :: _ :: _ :: _ :: _ => rfl
  case construct =>
    match parts with
    | [callee, args, _] =>
      exact hlist [.fixed "new ", .inner callee, .fixed "("] args.parts ")"
    | [] | [_] | [_, _] | _ :: _ :: _ :: _ :: _ => rfl
  case assign op =>
    match parts with
    | [target, e] =>
      change spelled write' (targetPieces (targetTop f target)
          ++ [.fixed (" " ++ op.text ++ " "), .inner (f e)]) =
        spelled write (targetPieces target ++ [.fixed (" " ++ op.text ++ " "), .inner e])
      rw [spelled_append, spelled_append, spelled_targetPieces_targetTop hform hwrite hmark]
      exact congrArg _ (hpieces [.fixed (" " ++ op.text ++ " "), .inner e])
    | [] | [_] | _ :: _ :: _ :: _ => rfl
  case arrow =>
    match parts with
    | params :: result :: _ =>
      have hparams : ((params.parts.map patternTop).map patternPieces).map (spelled write') =
          (params.parts.map patternPieces).map (spelled write) := by
        simp only [List.map_map]
        exact List.map_congr_left fun p _ => spelled_patternPieces_patternTop write write' p
      change spelled write' ([.fixed "("]
          ++ commaSeparated ((params.parts.map patternTop).map patternPieces) ++ [.fixed ") => "]
          ++ resultPieces (resultTop f result)) =
        spelled write ([.fixed "("] ++ commaSeparated (params.parts.map patternPieces)
          ++ [.fixed ") => "] ++ resultPieces result)
      simp only [spelled_append, spelled_commaSeparated, hparams,
        spelled_resultPieces_resultTop hform hwrite]
      rfl
    | [] | [_] => rfl
  case functionExpr =>
    match parts with
    | [] => rfl
    | ⟨name, _, _⟩ :: _ => cases name <;> rfl
  case object => cases parts <;> rfl
  case array =>
    match parts with
    -- Four marks are too many items, too.
    | [] | _ :: _ :: _ :: _ :: _ => rfl
    | [a] => exact hlist [.fixed "["] [a] "]"
    | [a, b] => exact hlist [.fixed "["] [a, b] "]"
    | [a, b, c] => exact hlist [.fixed "["] [a, b, c] "]"
  case markup =>
    match parts with
    | [m] => exact spelled_markupPieces_markupTop write write' m
    | [] | _ :: _ :: _ => rfl
  case asType | satisfies =>
    match parts with
    | [e, _] => exact spelled_summaryPieces_firstLevel e
    | [] | [_] | _ :: _ :: _ :: _ => rfl
  case asConst =>
    match parts with
    | [e] => exact spelled_summaryPieces_firstLevel e
    | [] | _ :: _ :: _ => rfl
  all_goals rfl

end OneLevel

/-! ### All levels -/

/-- What was cut off is an ellipsis, however much room there is. -/
theorem summaryWithin_mark (room : Nat) : summaryWithin room mark = ellipsis := by
  cases room <;> rfl

/-- **A summary shows the top of an expression**, and nothing else of it: with room for some levels
it is the summary of what is left when the rest is cut off. In that nothing is left out but what was
cut off, so it does not matter if there is more room. -/
theorem summaryWithin_top {levels room : Nat} (hroom : levels ≤ room) (e : Node) :
    summaryWithin room (top levels e) = summaryWithin levels e := by
  induction levels generalizing room e with
  | zero => exact (summaryWithin_mark room).trans (summaryWithin_zero e).symm
  | succ levels ih =>
    obtain ⟨room, rfl⟩ := Nat.exists_eq_succ_of_ne_zero (Nat.ne_zero_of_lt hroom)
    rw [summaryWithin_eq_spelled, summaryWithin_eq_spelled]
    refine spelled_summaryPieces_firstLevel ?_ (ih (Nat.le_of_succ_le_succ hroom))
      (summaryWithin_mark room) e
    intro e
    cases levels with
    | zero => exact Or.inr rfl
    | succ levels => exact Or.inl (form_firstLevel _ e)

/-- **The summary depends only on the top of an expression.** Two expressions that are equal down to
the seventh level, and have anything below, have one summary. It is what is written of that top with
any room, and there each place that was cut off is a single ellipsis. -/
theorem summary_eq_of_top_eq {e e' : Node} (h : top summaryDepth e = top summaryDepth e') :
    summary e = summary e' ∧
      (∀ room, summaryDepth ≤ room → summaryWithin room (top summaryDepth e) = summary e) ∧
      ∀ room, summaryWithin room mark = "…" := by
  refine ⟨?_, fun room hroom => summaryWithin_top hroom e, summaryWithin_mark⟩
  have hself := summaryWithin_top (Nat.le_refl summaryDepth)
  rw [summary, summary, ← hself e, ← hself e', h]

/-- An argument of a call behind six signs: `f(!!!!!!e)`. -/
def deepArgument (e : Node) : Node :=
  let negated (e : Node) : Node := ⟨.unary .logicalNot, 3, [e]⟩
  let argument := negated (negated (negated (negated (negated (negated e)))))
  ⟨.call, 1, [.leaf (.name "f") 1, .list [⟨.item, 3, [argument]⟩], .list []]⟩

/-- `f(!!!!!!x)` and `f(!!!!!!(this))` differ below the seventh level. -/
theorem summary_deepArgument :
    top summaryDepth (deepArgument (.leaf (.name "x") 9)) =
        top summaryDepth (deepArgument ⟨.paren, 9, [.leaf .this 10]⟩) ∧
      summary (deepArgument (.leaf (.name "x") 9)) =
        summary (deepArgument ⟨.paren, 9, [.leaf .this 10]⟩) ∧
      summary (deepArgument (.leaf (.name "x") 9)) = "f(!!!!!!…)" := by
  have htop : top summaryDepth (deepArgument (.leaf (.name "x") 9)) =
      top summaryDepth (deepArgument ⟨.paren, 9, [.leaf .this 10]⟩) := rfl
  exact ⟨htop, (summary_eq_of_top_eq htop).1, by decide⟩

end Expression

end JsxWidgets
