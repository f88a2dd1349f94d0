import Mathlib.Data.List.Basic
import JsxWidgets.Proofs.Expression.Outline

/-!
# The pieces of a summary

A summary is put together from three kinds of text: what it writes itself, what it takes from the
expression, and the summaries of the expressions inside, each with room for one level less.
`summaryPieces` lists them for every form, and `summaryWithin_eq_spelled` says that a summary with
room for a level is spelled by them. A type behind an expression takes no room: the pieces are those
of the expression.
-/

namespace JsxWidgets.Expression

open Syntax

/-- **A piece of a summary.** -/
inductive Piece where
  /-- A text that the summary writes itself. -/
  | fixed (text : String)
  /-- A text of the expression, as it is. -/
  | shown (text : String)
  /-- A text of the expression in quotes. -/
  | quoted (value : String)
  /-- An expression inside, one level deeper. -/
  | inner (e : Node)

namespace Piece

/-- The text of a piece, for a given way to write the expressions inside. -/
def text (write : Node → String) : Piece → String
  | .fixed text => text
  | .shown text => text
  | .quoted value => quotedSummary value
  | .inner e => write e

/-- The text that pieces spell. -/
def spelled (write : Node → String) : List Piece → String
  | [] => ""
  | p :: ps => p.text write ++ spelled write ps

/-- Several runs of pieces with commas between them. -/
def commaSeparated (runs : List (List Piece)) : List Piece := [.fixed ", "].intercalate runs

@[simp] theorem spelled_append (write : Node → String) (ps qs : List Piece) :
    spelled write (ps ++ qs) = spelled write ps ++ spelled write qs := by
  induction ps with
  | nil => exact String.empty_append.symm
  | cons p ps ih => rw [List.cons_append, spelled, spelled, ih, String.append_assoc]

theorem spelled_singleton (write : Node → String) (p : Piece) :
    spelled write [p] = p.text write := by
  rw [spelled, spelled, String.append_empty]

/-- Runs of pieces with commas in between are written with commas in between. -/
theorem spelled_commaSeparated (write : Node → String) (runs : List (List Piece)) :
    spelled write (commaSeparated runs) = ", ".intercalate (runs.map (spelled write)) := by
  rw [commaSeparated]
  induction runs with
  | nil => rw [List.map_nil, String.intercalate_nil]; rfl
  | cons run runs ih =>
    cases runs with
    | nil => rw [List.intercalate_singleton, List.map_singleton, String.intercalate_singleton]
    | cons next runs =>
      rw [List.intercalate_cons_cons, spelled_append, spelled_append, ih, spelled_singleton,
        List.map_cons, List.map_cons, List.map_cons, String.intercalate_cons_cons]
      rfl

end Piece

open Piece

/-- The pieces of an argument of a call or of an item of an array; a hole has none. -/
def itemPieces : Node → List Piece
  | ⟨.spread, _, [e]⟩ => [.fixed "...", .inner e]
  | ⟨.item, _, [e]⟩ => [.inner e]
  | _ => []

/-- The pieces of a pattern. -/
def patternPieces : Node → List Piece
  | ⟨.bind t, _, _⟩ => [.shown t]
  | ⟨.arrayPat, _, _⟩ => [.fixed "[…]"]
  | ⟨.objectPat, _, _⟩ => [.fixed elidedBlock]
  | ⟨.rest, _, [pattern, _]⟩ => .fixed "..." :: patternPieces pattern
  | ⟨.defaultPat, _, [pattern, _]⟩ => patternPieces pattern
  | _ => [.fixed ellipsis]

/-- The pieces of a template: what is written in it, and the substitutions. -/
def templatePieces : List Quasi → List Node → List Piece
  | [], _ => []
  | q :: qs, [] => .shown q.raw :: templatePieces qs []
  | q :: qs, e :: es =>
    [.shown q.raw, .fixed ("$" ++ openBrace), .inner e, .fixed closeBrace] ++ templatePieces qs es

/-- The pieces of markup. -/
def markupPieces : Node → List Piece
  | ⟨.element, _, ⟨.opening tag, _, _⟩ :: _⟩ => [.fixed "<", .shown tag.text, .fixed " />"]
  | _ => [.fixed "<>…</>"]

/-- The pieces of what is called. -/
def calleePieces (f : Node) : List Piece :=
  match f.form with
  | .superCallee => [.fixed "super"]
  | .importCallee => [.fixed "import"]
  | _ => [.inner f]

/-- The pieces of an access to an object. -/
def memberPieces (o : Node) : Node → List Piece
  | ⟨.word t, _, _⟩ => [.inner o, .fixed ".", .shown t]
  | ⟨.hidden t, _, _⟩ => [.inner o, .fixed ".#", .shown t]
  | ⟨.computed, _, [k]⟩ => [.inner o, .fixed "[", .inner k, .fixed "]"]
  | _ => [.fixed ellipsis]

/-- The pieces of an access to an object that may be missing. -/
def optMemberPieces (o : Node) : Node → List Piece
  | ⟨.word t, _, _⟩ => [.inner o, .fixed "?.", .shown t]
  | ⟨.hidden _, _, _⟩ => [.inner o, .fixed ("?.#" ++ ellipsis)]
  | ⟨.computed, _, [k]⟩ => [.inner o, .fixed "?.[", .inner k, .fixed "]"]
  | _ => [.fixed ellipsis]

/-- The pieces of the target of an assignment. -/
def targetPieces : Node → List Piece
  | ⟨.binder t, _, _⟩ => [.shown t]
  | ⟨.target, _, [m]⟩ => if m.form = .member then [.inner m] else [.fixed ellipsis]
  | _ => [.fixed ellipsis]

/-- The pieces of the result of an arrow function. -/
def resultPieces (result : Node) : List Piece :=
  match result.form with
  | .body => [.fixed elidedBlock]
  | _ => [.inner result]

/-- The pieces of several arguments or items. -/
def listPieces (items : List Node) : List Piece := commaSeparated (items.map itemPieces)

/-- **The pieces of the summary of an expression.** -/
def summaryPieces : Node → List Piece
  | ⟨form, _, parts⟩ =>
    match form, parts with
    | .name t, _ => [.shown t]
    | .this, _ => [.fixed "this"]
    | .string v, _ => [.quoted v]
    | .number v, _ => [.fixed v.positional]
    | .bool v, _ => [.fixed (if v then "true" else "false")]
    | .null, _ => [.fixed "null"]
    | .bigint v, _ => [.fixed (toString v ++ "n")]
    | .regex pattern flags, _ => [.fixed "/", .shown pattern, .fixed "/", .shown flags]
    | .paren, [e] => [.fixed "(", .inner e, .fixed ")"]
    | .member, [o, selector] => memberPieces o selector
    | .optMember, [o, selector] => optMemberPieces o selector
    | .optCall, [f, list, _] => [.inner f, .fixed "?.("] ++ listPieces list.parts ++ [.fixed ")"]
    | .call, [f, list, _] => calleePieces f ++ [.fixed "("] ++ listPieces list.parts ++ [.fixed ")"]
    | .construct, [f, list, _] =>
      [.fixed "new ", .inner f, .fixed "("] ++ listPieces list.parts ++ [.fixed ")"]
    | .binary op, [l, r] => [.inner l, .fixed (" " ++ op.text ++ " "), .inner r]
    | .unary op, [e] => [.fixed (op.text ++ if op.isWord then " " else ""), .inner e]
    | .update op inFront, [e] =>
      if inFront then [.fixed op.text, .inner e] else [.inner e, .fixed op.text]
    | .conditional, [test, yes, no] =>
      [.inner test, .fixed " ? ", .inner yes, .fixed " : ", .inner no]
    | .await, [e] => [.fixed "await ", .inner e]
    | .assign op, [target, e] => targetPieces target ++ [.fixed (" " ++ op.text ++ " "), .inner e]
    | .template quasis, holes => [.fixed "`"] ++ templatePieces quasis holes ++ [.fixed "`"]
    | .arrow, params :: result :: _ =>
      [.fixed "("] ++ commaSeparated (params.parts.map patternPieces) ++ [.fixed ") => "]
        ++ resultPieces result
    | .functionExpr, ⟨.binder t, _, _⟩ :: _ =>
      [.fixed "function ", .shown t, .fixed ("() " ++ elidedBlock)]
    | .functionExpr, _ => [.fixed ("function() " ++ elidedBlock)]
    | .object, [] => [.fixed (openBrace ++ closeBrace)]
    | .object, _ => [.fixed elidedBlock]
    | .array, [] => [.fixed "[]"]
    | .array, _ :: _ :: _ :: _ :: _ => [.fixed "[…]"]
    | .array, items => [.fixed "["] ++ listPieces items ++ [.fixed "]"]
    | .markup, [m] => markupPieces m
    | .asType, [e, _] | .satisfies, [e, _] | .asConst, [e] => summaryPieces e
    | .nonNull, [e] => [.inner e, .fixed "!"]
    | .sequence, es => commaSeparated (es.map fun e => [.inner e])
    | _, _ => [.fixed ellipsis]

/-! ### Runs of pieces -/

section Runs

variable (room : Nat)

/-- An item is written as its pieces. -/
theorem itemSummaries_eq (items : List Node) :
    itemSummaries room items = items.map fun i => spelled (summaryWithin room) (itemPieces i) := by
  induction items with
  | nil => rfl
  | cons i items ih =>
    obtain ⟨form, place, parts⟩ := i
    rw [List.map_cons, ← ih]
    cases form
    case spread | item =>
      match parts with
      | [] | _ :: _ :: _ => rfl
      | [e] => simp [itemSummaries, itemPieces, spelled, text]
    all_goals rfl

/-- So is a list of items. -/
theorem spelled_listPieces (items : List Node) :
    spelled (summaryWithin room) (listPieces items) =
      ", ".intercalate (itemSummaries room items) := by
  rw [listPieces, spelled_commaSeparated, List.map_map, itemSummaries_eq]
  rfl

theorem summaries_eq_map (es : List Node) : summaries room es = es.map (summaryWithin room) := by
  induction es with
  | nil => rfl
  | cons e es ih => rw [summaries, ih, List.map_cons]

/-- So is a pattern. -/
theorem spelled_patternPieces (pattern : Node) :
    spelled (summaryWithin room) (patternPieces pattern) = patternSummary pattern := by
  fun_induction patternPieces pattern with
  | case1 | case2 | case3 => simp [patternSummary, spelled, text]
  | case4 _ _ _ ih => simp [patternSummary, spelled, text, ih]
  | case5 _ _ _ ih => simp [patternSummary, ih]
  | case6 n hbind harray hobject hrest hdefault =>
    rw [patternSummary, spelled_singleton, text]
    all_goals assumption

/-- So is a template, with what is written for its substitutions. -/
theorem spelled_templatePieces (quasis : List Quasi) (holes : List Node) :
    spelled (summaryWithin room) (templatePieces quasis holes) =
      interleave quasis (summaries room holes) := by
  fun_induction templatePieces quasis holes with
  | case1 => rfl
  | case2 q qs ih => simp [spelled, text, ih, summaries, interleave]
  | case3 q qs e es ih =>
    simp [spelled, text, ih, summaries, interleave, String.append_assoc]

/-- So is what is called. -/
theorem spelled_calleePieces (f : Node) :
    spelled (summaryWithin room) (calleePieces f) =
      match f.form with
      | .superCallee => "super"
      | .importCallee => "import"
      | _ => summaryWithin room f := by
  rw [calleePieces]
  split <;> rw [spelled_singleton, text]

/-- So is the result of an arrow function. -/
theorem spelled_resultPieces (result : Node) :
    spelled (summaryWithin room) (resultPieces result) =
      match result.form with
      | .body => elidedBlock
      | _ => summaryWithin room result := by
  rw [resultPieces]
  split <;> rw [spelled_singleton, text]

/-- So is the target of an assignment. -/
theorem spelled_targetPieces (target : Node) :
    spelled (summaryWithin room) (targetPieces target) = targetSummary room target := by
  obtain ⟨form, place, parts⟩ := target
  cases form
  case target =>
    match parts with
    | [m] =>
      rw [targetPieces, targetSummary]
      split <;> rw [spelled_singleton, text]
    | [] | _ :: _ :: _ => exact spelled_singleton _ _
  all_goals exact spelled_singleton _ _

/-- And so is markup. -/
theorem spelled_markupPieces (m : Node) :
    spelled (summaryWithin room) (markupPieces m) = markupSummary m := by
  fun_cases markupPieces m with
  | case1 => simp [markupSummary, spelled, text, String.append_assoc]
  | case2 =>
    rw [spelled_singleton, text, markupSummary]
    assumption

end Runs

/-! ### Summaries -/

/-- Without room there is nothing but an ellipsis. -/
theorem summaryWithin_zero (e : Node) : summaryWithin 0 e = ellipsis := by
  obtain ⟨form, place, parts⟩ := e
  rfl

/-- An expression of which nothing is shown. -/
theorem spelled_ellipsis (room : Nat) :
    ellipsis = spelled (summaryWithin room) [.fixed ellipsis] :=
  (spelled_singleton (summaryWithin room) (.fixed ellipsis)).symm

section Forms

variable (room : Nat) (place : Place)

/-- A call and a construction are written as their pieces. -/
theorem summaryWithin_calls_eq_spelled {form : Form}
    (hform : form = .call ∨ form = .optCall ∨ form = .construct) (parts : List Node) :
    summaryWithin (room + 1) ⟨form, place, parts⟩ =
      spelled (summaryWithin room) (summaryPieces ⟨form, place, parts⟩) := by
  -- with a wrong number of parts both sides are the ellipsis
  by_cases hlength : parts.length = 3
  · obtain ⟨f, list, types, rfl⟩ := List.length_eq_three.mp hlength
    rcases hform with rfl | rfl | rfl
    · change _ = spelled (summaryWithin room)
        (calleePieces f ++ [.fixed "("] ++ listPieces list.parts ++ [.fixed ")"])
      rw [summaryWithin_call, spelled_append, spelled_append, spelled_append, spelled_listPieces,
        spelled_calleePieces, spelled_singleton, spelled_singleton]
      rfl
    · change _ = spelled (summaryWithin room)
        ([.inner f, .fixed "?.("] ++ listPieces list.parts ++ [.fixed ")"])
      rw [summaryWithin_optCall, spelled_append, spelled_append, spelled_listPieces]
      simp only [spelled, text, String.append_empty]
    · change _ = spelled (summaryWithin room)
        ([.fixed "new ", .inner f, .fixed "("] ++ listPieces list.parts ++ [.fixed ")"])
      rw [summaryWithin_construct, spelled_append, spelled_append, spelled_listPieces]
      simp only [spelled, text, String.append_empty, String.append_assoc]
  · rw [summaryWithin_eq_ellipsis hform hlength]
    rcases hform with rfl | rfl | rfl
    all_goals
      match parts, hlength with
      | [], _ | [_], _ | [_, _], _ | _ :: _ :: _ :: _ :: _, _ => exact spelled_ellipsis room

/-- So is an access. -/
theorem summaryWithin_access_eq_spelled {form : Form} (hform : form = .member ∨ form = .optMember)
    (parts : List Node) :
    summaryWithin (room + 1) ⟨form, place, parts⟩ =
      spelled (summaryWithin room) (summaryPieces ⟨form, place, parts⟩) := by
  by_cases hlength : parts.length = 2
  · obtain ⟨o, ⟨selector, p, ps⟩, rfl⟩ := List.length_eq_two.mp hlength
    -- The selector decides what stands behind the object; what was never read so is elided.
    cases selector
    case word t =>
      rcases hform with rfl | rfl
      · change summaryWithin room o ++ "." ++ t =
          spelled (summaryWithin room) [.inner o, .fixed ".", .shown t]
        simp only [spelled, text, String.append_empty, String.append_assoc]
      · change summaryWithin room o ++ "?." ++ t =
          spelled (summaryWithin room) [.inner o, .fixed "?.", .shown t]
        simp only [spelled, text, String.append_empty, String.append_assoc]
    case hidden t =>
      rcases hform with rfl | rfl
      · change summaryWithin room o ++ ".#" ++ t =
          spelled (summaryWithin room) [.inner o, .fixed ".#", .shown t]
        simp only [spelled, text, String.append_empty, String.append_assoc]
      · change summaryWithin room o ++ "?.#" ++ ellipsis =
          spelled (summaryWithin room) [.inner o, .fixed ("?.#" ++ ellipsis)]
        simp only [spelled, text, String.append_empty, String.append_assoc]
    case computed =>
      match ps with
      | [] | _ :: _ :: _ => rcases hform with rfl | rfl <;> exact spelled_ellipsis room
      | [k] =>
        rcases hform with rfl | rfl
        · change summaryWithin room o ++ "[" ++ summaryWithin room k ++ "]" =
            spelled (summaryWithin room) [.inner o, .fixed "[", .inner k, .fixed "]"]
          simp only [spelled, text, String.append_empty, String.append_assoc]
        · change summaryWithin room o ++ "?.[" ++ summaryWithin room k ++ "]" =
            spelled (summaryWithin room) [.inner o, .fixed "?.[", .inner k, .fixed "]"]
          simp only [spelled, text, String.append_empty, String.append_assoc]
    all_goals rcases hform with rfl | rfl <;> exact spelled_ellipsis room
  · rw [summaryWithin_access_eq_ellipsis hform hlength]
    match parts, hlength with
    | [], _ | [_], _ | _ :: _ :: _ :: _, _ =>
      rcases hform with rfl | rfl <;> exact spelled_ellipsis room

/-- So is an assignment. -/
theorem summaryWithin_assign_eq_spelled (op : AssignOp) (parts : List Node) :
    summaryWithin (room + 1) ⟨.assign op, place, parts⟩ =
      spelled (summaryWithin room) (summaryPieces ⟨.assign op, place, parts⟩) := by
  by_cases hlength : parts.length = 2
  · obtain ⟨target, value, rfl⟩ := List.length_eq_two.mp hlength
    change _ = spelled (summaryWithin room)
      (targetPieces target ++ [.fixed (" " ++ op.text ++ " "), .inner value])
    rw [summaryWithin_assign, spelled_append, spelled_targetPieces]
    simp only [spelled, text, String.append_empty, String.append_assoc]
  · rw [summaryWithin_assign_eq_ellipsis hlength]
    match parts, hlength with
    | [], _ | [_], _ | _ :: _ :: _ :: _, _ => exact spelled_ellipsis room

/-- So is an arrow function. -/
theorem summaryWithin_arrow_eq_spelled (parts : List Node) :
    summaryWithin (room + 1) ⟨.arrow, place, parts⟩ =
      spelled (summaryWithin room) (summaryPieces ⟨.arrow, place, parts⟩) := by
  match parts with
  | [] | [_] =>
    rw [summaryWithin_arrow_eq_ellipsis (by simp)]
    exact spelled_ellipsis room
  | params :: result :: rest =>
    change _ = spelled (summaryWithin room) ([.fixed "("]
      ++ commaSeparated (params.parts.map patternPieces) ++ [.fixed ") => "]
      ++ resultPieces result)
    -- the parameters are spelled without room, like their summaries
    have hparams : params.parts.map patternSummary =
        params.parts.map (spelled (summaryWithin room) ∘ patternPieces) :=
      List.map_congr_left fun p _ => (spelled_patternPieces room p).symm
    rw [summaryWithin_arrow, hparams, spelled_append, spelled_append, spelled_append,
      spelled_commaSeparated, spelled_resultPieces, spelled_singleton, spelled_singleton,
      List.map_map]
    rfl

end Forms

/-- **A summary is spelled by its pieces.** -/
theorem summaryWithin_eq_spelled (room : Nat) (e : Node) :
    summaryWithin (room + 1) e = spelled (summaryWithin room) (summaryPieces e) := by
  obtain ⟨form, place, parts⟩ := e
  have hfixed (t : String) : t = spelled (summaryWithin room) [.fixed t] :=
    (spelled_singleton (summaryWithin room) (.fixed t)).symm
  -- A form with the wrong number of parts is an ellipsis.
  have hellipsis := spelled_ellipsis room
  cases form
  case name t => exact (spelled_singleton (summaryWithin room) (.shown t)).symm
  case string v => exact (spelled_singleton (summaryWithin room) (.quoted v)).symm
  case this | number | bool | null | bigint => exact hfixed _
  case regex pattern flags =>
    change "/" ++ pattern ++ "/" ++ flags =
      spelled (summaryWithin room) [.fixed "/", .shown pattern, .fixed "/", .shown flags]
    simp only [spelled, text, String.append_empty, String.append_assoc]
  case paren =>
    match parts with
    | [e] =>
      change "(" ++ summaryWithin room e ++ ")" =
        spelled (summaryWithin room) [.fixed "(", .inner e, .fixed ")"]
      simp only [spelled, text, String.append_empty, String.append_assoc]
    | [] | _ :: _ :: _ => exact hellipsis
  case await =>
    match parts with
    | [e] =>
      change "await " ++ summaryWithin room e =
        spelled (summaryWithin room) [.fixed "await ", .inner e]
      simp only [spelled, text, String.append_empty]
    | [] | _ :: _ :: _ => exact hellipsis
  case nonNull =>
    match parts with
    | [e] =>
      change summaryWithin room e ++ "!" = spelled (summaryWithin room) [.inner e, .fixed "!"]
      simp only [spelled, text, String.append_empty]
    | [] | _ :: _ :: _ => exact hellipsis
  case unary op =>
    match parts with
    | [e] =>
      change op.text ++ (if op.isWord then " " else "") ++ summaryWithin room e =
        spelled (summaryWithin room)
          [.fixed (op.text ++ if op.isWord then " " else ""), .inner e]
      simp only [spelled, text, String.append_empty]
    | [] | _ :: _ :: _ => exact hellipsis
  case update op inFront =>
    match parts, inFront with
    | [e], true =>
      change op.text ++ summaryWithin room e =
        spelled (summaryWithin room) [.fixed op.text, .inner e]
      simp only [spelled, text, String.append_empty]
    | [e], false =>
      change summaryWithin room e ++ op.text =
        spelled (summaryWithin room) [.inner e, .fixed op.text]
      simp only [spelled, text, String.append_empty]
    | [], _ | _ :: _ :: _, _ => exact hellipsis
  case asType | satisfies =>
    match parts with
    | [e, _] => exact summaryWithin_eq_spelled room e
    | [] | [_] | _ :: _ :: _ :: _ => exact hellipsis
  case asConst =>
    match parts with
    | [e] => exact summaryWithin_eq_spelled room e
    | [] | _ :: _ :: _ => exact hellipsis
  case binary op =>
    match parts with
    | [l, r] =>
      change summaryWithin room l ++ " " ++ op.text ++ " " ++ summaryWithin room r =
        spelled (summaryWithin room) [.inner l, .fixed (" " ++ op.text ++ " "), .inner r]
      simp only [spelled, text, String.append_empty, String.append_assoc]
    | [] | [_] | _ :: _ :: _ :: _ => exact hellipsis
  case conditional =>
    match parts with
    | [test, yes, no] =>
      change summaryWithin room test ++ " ? " ++ summaryWithin room yes ++ " : " ++
          summaryWithin room no =
        spelled (summaryWithin room)
          [.inner test, .fixed " ? ", .inner yes, .fixed " : ", .inner no]
      simp only [spelled, text, String.append_empty, String.append_assoc]
    | [] | [_] | [_, _] | _ :: _ :: _ :: _ :: _ => exact hellipsis
  case template quasis =>
    change "`" ++ interleave quasis (summaries room parts) ++ "`" =
      spelled (summaryWithin room) ([.fixed "`"] ++ templatePieces quasis parts ++ [.fixed "`"])
    rw [spelled_append, spelled_append, spelled_templatePieces, spelled_singleton, text]
  case sequence =>
    change ", ".intercalate (summaries room parts) =
      spelled (summaryWithin room) (commaSeparated (parts.map fun e => [.inner e]))
    rw [spelled_commaSeparated, summaries_eq_map, List.map_map]
    congr 1
    exact List.map_congr_left fun e _ => (spelled_singleton (summaryWithin room) (.inner e)).symm
  case object =>
    match parts with
    | [] | _ :: _ => exact hfixed _
  case array =>
    match parts with
    | [] | _ :: _ :: _ :: _ :: _ => exact hfixed _
    | [_] | [_, _] | [_, _, _] =>
      change "[" ++ ", ".intercalate (itemSummaries room _) ++ "]" =
        spelled (summaryWithin room) ([.fixed "["] ++ listPieces _ ++ [.fixed "]"])
      rw [spelled_append, spelled_append, spelled_listPieces, spelled_singleton,
        spelled_singleton, text, text]
  case call => exact summaryWithin_calls_eq_spelled room place (Or.inl rfl) parts
  case optCall => exact summaryWithin_calls_eq_spelled room place (Or.inr (Or.inl rfl)) parts
  case construct => exact summaryWithin_calls_eq_spelled room place (Or.inr (Or.inr rfl)) parts
  case member => exact summaryWithin_access_eq_spelled room place (Or.inl rfl) parts
  case optMember => exact summaryWithin_access_eq_spelled room place (Or.inr rfl) parts
  case assign op => exact summaryWithin_assign_eq_spelled room place op parts
  case arrow => exact summaryWithin_arrow_eq_spelled room place parts
  case functionExpr =>
    match parts with
    | [] => exact hfixed _
    | ⟨name, p, ps⟩ :: rest =>
      cases name
      case binder t =>
        change "function " ++ t ++ "() " ++ elidedBlock = spelled (summaryWithin room)
          [.fixed "function ", .shown t, .fixed ("() " ++ elidedBlock)]
        simp only [spelled, text, String.append_empty, String.append_assoc]
      all_goals exact hfixed _
  case markup =>
    match parts with
    | [m] => exact (spelled_markupPieces room m).symm
    | [] | _ :: _ :: _ => exact hellipsis
  all_goals exact hellipsis

end JsxWidgets.Expression
