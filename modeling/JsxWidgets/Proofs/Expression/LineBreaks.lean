import JsxWidgets.Proofs.Decimal.Numeral
import JsxWidgets.Proofs.Expression.Faithful
import JsxWidgets.Proofs.Expression.SummaryPieces

/-!
# Line breaks in summaries

A summary is meant to stand on a line, but what it takes from the expression it takes as it is, and
a quoted text or a template may have line breaks. It writes none itself (`allClean_summaryPieces`).
So the line breaks of a summary are those of the texts that it shows, in their order, and it is on a
single line exactly if each of these texts is (`singleLine_summary_iff`).

The proof goes level by level. On each of them the pieces of the summary are told apart, and the
expressions inside have one level less.
-/

namespace JsxWidgets

/-- The characters that end a line. -/
def Text.breaksLine (c : Char) : Bool := c = '\n' || c = '\r'

/-- The line breaks of a text, in order. -/
def Text.lineBreaks (s : String) : List Char := s.toList.filter breaksLine

/-- **A text on a single line**: without a line feed or a carriage return. -/
def Text.SingleLine (s : String) : Prop := ∀ c ∈ s.toList, c ≠ '\n' ∧ c ≠ '\r'

/-- A text is a single line if there are no line breaks in it. -/
theorem Text.singleLine_iff {s : String} : SingleLine s ↔ lineBreaks s = [] := by
  simp [SingleLine, lineBreaks, breaksLine]

/-- The line breaks of texts one behind the other are those of each. -/
@[simp] theorem Text.lineBreaks_append (s t : String) :
    lineBreaks (s ++ t) = lineBreaks s ++ lineBreaks t := by
  rw [lineBreaks, String.toList_append, List.filter_append]
  rfl

/-- Without either of the two characters there are none. -/
theorem Text.lineBreaks_eq_nil {s : String} (hlf : '\n' ∉ s.toList) (hcr : '\r' ∉ s.toList) :
    lineBreaks s = [] := by
  refine singleLine_iff.mp fun c hc => ⟨?_, ?_⟩
  · rintro rfl
    exact hlf hc
  · rintro rfl
    exact hcr hc

namespace Expression

open Syntax Text Piece

/-! ### Numbers and quoted texts -/

/-- A number is written without any. -/
theorem lineBreaks_positional (v : Binary64) : lineBreaks v.positional = [] := by
  cases v with
  | infinite => decide
  | finite m e =>
    obtain ⟨whole, places, hdigits, htext, -⟩ := Binary64.exists_positional_eq m e
    have hnot {c : Char} (hdigit : c.isDigit = false) (hpoint : c ≠ '.') :
        c ∉ (Binary64.positional (.finite m e)).toList :=
      htext ▸ Numeral.notMem_numeral hdigits hdigit hpoint
    exact lineBreaks_eq_nil (hnot (by decide) (by decide)) (hnot (by decide) (by decide))

/-- So is a natural number. -/
theorem lineBreaks_toString (n : Nat) : lineBreaks (toString n) = [] := by
  have hnot {c : Char} (hdigit : c.isDigit = false) : c ∉ (toString n).toList := fun hc => by
    change c ∈ (Nat.repr n).toList at hc
    rw [Nat.toList_repr] at hc
    rw [Binary64.digitsOf_digits n c hc] at hdigit
    cases hdigit
  exact lineBreaks_eq_nil (hnot (by decide)) (hnot (by decide))

/-- Quotes do not break lines, and neither do the backslashes in front of them. -/
theorem filter_escape (c : Char) :
    (if c = '\x22' then ['\\', c] else [c]).filter breaksLine = [c].filter breaksLine := by
  split
  · next h =>
    rw [h]
    rfl
  · rfl

/-- A text in quotes has those of the text: only quotes are escaped in it. -/
theorem lineBreaks_quotedSummary (v : String) : lineBreaks (quotedSummary v) = lineBreaks v := by
  have hquote : lineBreaks "\"" = [] := by decide
  rw [quotedSummary, lineBreaks_append, lineBreaks_append, hquote, List.nil_append, List.append_nil,
    lineBreaks, String.toList_ofList, List.filter_flatMap, lineBreaks]
  simp only [filter_escape]
  rw [← List.filter_flatMap, List.flatMap_singleton']

/-! ### Pieces without line breaks of their own -/

/-- A piece that has no line breaks of its own. -/
def Piece.IsClean : Piece → Prop
  | .fixed text => lineBreaks text = []
  | _ => True

instance : DecidablePred Piece.IsClean
  | .fixed _ => inferInstanceAs (Decidable (_ = _))
  | .shown _ | .quoted _ | .inner _ => .isTrue trivial

/-- Pieces without line breaks of their own. -/
def AllClean (ps : List Piece) : Prop := ∀ p ∈ ps, p.IsClean

namespace AllClean

/-- No pieces are clean. -/
theorem nil : AllClean [] := List.forall_mem_nil _

/-- Pieces are clean if the first one and the others are. -/
theorem cons {p : Piece} {ps : List Piece} (hp : p.IsClean) (h : AllClean ps) :
    AllClean (p :: ps) := List.forall_mem_cons.mpr ⟨hp, h⟩

/-- Pieces one behind the other are clean if both lists are. -/
theorem append {ps qs : List Piece} (hp : AllClean ps) (hq : AllClean qs) : AllClean (ps ++ qs) :=
  List.forall_mem_append.mpr ⟨hp, hq⟩

/-- A fixed text is clean if it has no line break. -/
theorem fixed {text : String} (h : lineBreaks text = []) : AllClean [.fixed text] :=
  cons h nil

/-- What is written in the place of an expression brings its own. -/
theorem inner (e : Node) : AllClean [.inner e] := cons trivial nil

/-- Commas between clean pieces are clean. -/
theorem commaSeparated {runs : List (List Piece)} (h : ∀ run ∈ runs, AllClean run) :
    AllClean (Piece.commaSeparated runs) := by
  rw [Piece.commaSeparated]
  induction runs with
  | nil => exact nil
  | cons run runs ih =>
    obtain ⟨hrun, hruns⟩ := List.forall_mem_cons.mp h
    cases runs with
    | nil => rwa [List.intercalate_singleton]
    | cons next runs =>
      rw [List.intercalate_cons_cons]
      exact (hrun.append (fixed (by decide))).append (ih hruns)

end AllClean

/-- What is fixed in an item breaks no line. -/
theorem allClean_itemPieces (item : Node) : AllClean (itemPieces item) := by
  fun_cases itemPieces item with
  | case1 => exact .cons (by decide) (.inner _)
  | case2 => exact .inner _
  | case3 => exact .nil

/-- So is a list of items. -/
theorem allClean_listPieces (items : List Node) : AllClean (listPieces items) :=
  .commaSeparated (List.forall_mem_map.mpr fun item _ => allClean_itemPieces item)

/-- So is a pattern. -/
theorem allClean_patternPieces (pattern : Node) : AllClean (patternPieces pattern) := by
  fun_induction patternPieces pattern with
  | case1 => exact .cons trivial .nil
  | case2 | case3 | case6 => exact .fixed (by decide)
  | case4 _ _ _ ih => exact .cons (by decide) ih
  | case5 _ _ _ ih => exact ih

/-- What is fixed in a template with substitutions breaks no line. -/
theorem allClean_templatePieces (quasis : List Quasi) (holes : List Node) :
    AllClean (templatePieces quasis holes) := by
  fun_induction templatePieces quasis holes with
  | case1 => exact .nil
  | case2 _ _ ih => exact .cons trivial ih
  | case3 _ _ _ _ ih =>
    exact .append (.cons trivial (.cons (by decide) (.cons trivial (.fixed (by decide))))) ih

/-- Binary operators are written without line breaks. -/
theorem lineBreaks_binaryOp (op : BinaryOp) : lineBreaks op.text = [] := by
  cases op <;> decide

/-- So are those of assignments. -/
theorem lineBreaks_assignOp (op : AssignOp) : lineBreaks op.text = [] := by
  cases op with
  | plain => decide
  | combined op => rw [AssignOp.text, lineBreaks_append, lineBreaks_binaryOp]; decide

/-- The text of an operator between two blanks. -/
theorem isClean_spaced {op : String} (h : lineBreaks op = []) :
    (Piece.fixed (" " ++ op ++ " ")).IsClean := by
  change lineBreaks (" " ++ op ++ " ") = []
  rw [lineBreaks_append, lineBreaks_append, h]
  decide

/-- So is a member. -/
theorem allClean_memberPieces (o selector : Node) : AllClean (memberPieces o selector) := by
  fun_cases memberPieces o selector with
  | case1 | case2 => exact .cons trivial (.cons (by decide) (.cons trivial .nil))
  | case3 => exact .cons trivial (.cons (by decide) (.cons trivial (.fixed (by decide))))
  | case4 => exact .fixed (by decide)

/-- So is an optional one. -/
theorem allClean_optMemberPieces (o selector : Node) : AllClean (optMemberPieces o selector) := by
  fun_cases optMemberPieces o selector with
  | case1 => exact .cons trivial (.cons (by decide) (.cons trivial .nil))
  | case2 => exact .cons trivial (.fixed (by decide))
  | case3 => exact .cons trivial (.cons (by decide) (.cons trivial (.fixed (by decide))))
  | case4 => exact .fixed (by decide)

/-- So is what is called. -/
theorem allClean_calleePieces (f : Node) : AllClean (calleePieces f) := by
  rw [calleePieces]
  split
  · exact .fixed (by decide)
  · exact .fixed (by decide)
  · exact .inner f

/-- So is the target of an assignment. -/
theorem allClean_targetPieces (target : Node) : AllClean (targetPieces target) := by
  fun_cases targetPieces target with
  | case1 => exact .cons trivial .nil
  | case2 => exact .inner _
  | case3 | case4 => exact .fixed (by decide)

/-- So is the result of an arrow function. -/
theorem allClean_resultPieces (result : Node) : AllClean (resultPieces result) := by
  rw [resultPieces]
  split
  · exact .fixed (by decide)
  · exact .inner result

/-- So is markup. -/
theorem allClean_markupPieces (m : Node) : AllClean (markupPieces m) := by
  fun_cases markupPieces m with
  | case1 => exact .cons (by decide) (.cons trivial (.fixed (by decide)))
  | case2 => exact .fixed (by decide)

/-- **A summary writes no line breaks itself.** -/
theorem allClean_summaryPieces (e : Node) : AllClean (summaryPieces e) := by
  obtain ⟨form, place, parts⟩ := e
  -- A form with the wrong number of parts is an ellipsis.
  have hellipsis : AllClean [.fixed ellipsis] := .fixed (by decide)
  cases form
  case name | string => exact .cons trivial .nil
  case this | null => exact .fixed (by decide)
  case bool value => exact .fixed (by cases value <;> decide)
  case number v => exact .fixed (lineBreaks_positional v)
  case bigint v =>
    refine .fixed ?_
    rw [lineBreaks_append, lineBreaks_toString]
    decide
  case regex =>
    exact .cons (by decide) (.cons trivial (.cons (by decide) (.cons trivial .nil)))
  case paren =>
    match parts with
    | [e] => exact .cons (by decide) (.cons trivial (.fixed (by decide)))
    | [] | _ :: _ :: _ => exact hellipsis
  case await =>
    match parts with
    | [e] => exact .cons (by decide) (.inner e)
    | [] | _ :: _ :: _ => exact hellipsis
  case nonNull =>
    match parts with
    | [e] => exact .cons trivial (.fixed (by decide))
    | [] | _ :: _ :: _ => exact hellipsis
  case unary op =>
    match parts with
    | [e] => exact .cons (by cases op <;> decide) (.inner e)
    | [] | _ :: _ :: _ => exact hellipsis
  case update op inFront =>
    have hop : lineBreaks op.text = [] := by cases op <;> decide
    match parts, inFront with
    | [e], true => exact .cons hop (.inner e)
    | [e], false => exact .cons trivial (.fixed hop)
    | [], _ | _ :: _ :: _, _ => exact hellipsis
  case asType | satisfies =>
    match parts with
    | [e, _] => exact allClean_summaryPieces e
    | [] | [_] | _ :: _ :: _ :: _ => exact hellipsis
  case asConst =>
    match parts with
    | [e] => exact allClean_summaryPieces e
    | [] | _ :: _ :: _ => exact hellipsis
  case binary op =>
    match parts with
    | [l, r] => exact .cons trivial (.cons (isClean_spaced (lineBreaks_binaryOp op)) (.inner r))
    | [] | [_] | _ :: _ :: _ :: _ => exact hellipsis
  case conditional =>
    match parts with
    | [test, yes, no] =>
      exact .cons trivial (.cons (by decide) (.cons trivial (.cons (by decide) (.inner no))))
    | [] | [_] | [_, _] | _ :: _ :: _ :: _ :: _ => exact hellipsis
  case template quasis =>
    have hmark : AllClean [.fixed "`"] := .fixed (by decide)
    exact (hmark.append (allClean_templatePieces quasis parts)).append hmark
  case sequence => exact .commaSeparated (List.forall_mem_map.mpr fun e _ => .inner e)
  case object =>
    cases parts with
    | nil | cons => exact .fixed (by decide)
  case array =>
    match parts with
    | [] | _ :: _ :: _ :: _ :: _ => exact .fixed (by decide)
    | [_] | [_, _] | [_, _, _] =>
      exact .append (.append (.fixed (by decide)) (allClean_listPieces _)) (.fixed (by decide))
  case call =>
    match parts with
    | [f, list, _] =>
      exact .append (.append ((allClean_calleePieces f).append (.fixed (by decide)))
        (allClean_listPieces list.parts)) (.fixed (by decide))
    | [] | [_] | [_, _] | _ :: _ :: _ :: _ :: _ => exact hellipsis
  case optCall =>
    match parts with
    | [f, list, _] =>
      exact .append (.append (.cons trivial (.fixed (by decide))) (allClean_listPieces list.parts))
        (.fixed (by decide))
    | [] | [_] | [_, _] | _ :: _ :: _ :: _ :: _ => exact hellipsis
  case construct =>
    match parts with
    | [f, list, _] =>
      exact .append (.append (.cons (by decide) (.cons trivial (.fixed (by decide))))
        (allClean_listPieces list.parts)) (.fixed (by decide))
    | [] | [_] | [_, _] | _ :: _ :: _ :: _ :: _ => exact hellipsis
  case member =>
    match parts with
    | [o, selector] => exact allClean_memberPieces o selector
    | [] | [_] | _ :: _ :: _ :: _ => exact hellipsis
  case optMember =>
    match parts with
    | [o, selector] => exact allClean_optMemberPieces o selector
    | [] | [_] | _ :: _ :: _ :: _ => exact hellipsis
  case assign op =>
    match parts with
    | [target, value] =>
      exact (allClean_targetPieces target).append
        (.cons (isClean_spaced (lineBreaks_assignOp op)) (.inner value))
    | [] | [_] | _ :: _ :: _ :: _ => exact hellipsis
  case arrow =>
    match parts with
    | params :: result :: _ =>
      have hparams : AllClean (Piece.commaSeparated (params.parts.map patternPieces)) :=
        .commaSeparated (List.forall_mem_map.mpr fun p _ => allClean_patternPieces p)
      exact .append (.append (.append (.fixed (by decide)) hparams) (.fixed (by decide)))
        (allClean_resultPieces result)
    | [] | [_] => exact hellipsis
  case functionExpr =>
    match parts with
    | [] => exact .fixed (by decide)
    | ⟨name, p, ps⟩ :: rest =>
      cases name
      case binder => exact .cons (by decide) (.cons trivial (.fixed (by decide)))
      all_goals exact .fixed (by decide)
  case markup =>
    match parts with
    | [m] => exact allClean_markupPieces m
    | [] | _ :: _ :: _ => exact hellipsis
  all_goals exact hellipsis

/-! ### The texts that a summary shows -/

/-- The texts of the expression in a piece, for a given list of those of the expressions inside. -/
def Piece.texts (below : Node → List String) : Piece → List String
  | .fixed _ => []
  | .shown text => [text]
  | .quoted value => [value]
  | .inner e => below e

/-- **The texts that a summary shows**: the names, the quoted texts, the pieces of templates and the
regular expressions down to the levels that there is room for, in order. -/
def shownTexts : Nat → Node → List String
  | 0, _ => []
  | room + 1, e => (summaryPieces e).flatMap (Piece.texts (shownTexts room))

/-- A clean piece is written with the line breaks of what is written for the expressions in it. -/
theorem Piece.lineBreaks_text {write : Node → String} {below : Node → List String}
    (h : ∀ e, lineBreaks (write e) = (below e).flatMap lineBreaks) {p : Piece} (hp : p.IsClean) :
    lineBreaks (p.text write) = (p.texts below).flatMap lineBreaks := by
  cases p with
  | fixed text => exact hp
  | shown text => exact (List.flatMap_singleton _ text).symm
  | quoted value =>
    exact (lineBreaks_quotedSummary value).trans (List.flatMap_singleton _ value).symm
  | inner e => exact h e

/-- One level: the line breaks of what pieces spell are those of their texts. -/
theorem lineBreaks_spelled {write : Node → String} {below : Node → List String}
    (h : ∀ e, lineBreaks (write e) = (below e).flatMap lineBreaks) {ps : List Piece}
    (hps : AllClean ps) :
    lineBreaks (spelled write ps) = (ps.flatMap (Piece.texts below)).flatMap lineBreaks := by
  induction ps with
  | nil => rfl
  | cons p ps ih =>
    obtain ⟨hp, hps⟩ := List.forall_mem_cons.mp hps
    rw [spelled, lineBreaks_append, List.flatMap_cons, List.flatMap_append, ih hps,
      Piece.lineBreaks_text h hp]

/-- All levels: the line breaks of a summary are those of the texts that it shows, in order. -/
theorem lineBreaks_summaryWithin (room : Nat) (e : Node) :
    lineBreaks (summaryWithin room e) = (shownTexts room e).flatMap lineBreaks := by
  -- The expressions inside are summarized with room for one level less.
  induction room generalizing e with
  | zero =>
    rw [summaryWithin_zero, shownTexts]
    decide
  | succ room ih =>
    rw [summaryWithin_eq_spelled, lineBreaks_spelled ih (allClean_summaryPieces e), shownTexts]

/-- **A summary breaks lines where the texts that it shows do.** Its line breaks are theirs, in
order. So it is on a single line exactly if each of them is. -/
theorem singleLine_summary_iff (e : Node) :
    lineBreaks (summary e) = (shownTexts summaryDepth e).flatMap lineBreaks ∧
      (SingleLine (summary e) ↔ ∀ t ∈ shownTexts summaryDepth e, SingleLine t) := by
  have hbreaks := lineBreaks_summaryWithin summaryDepth e
  refine ⟨hbreaks, ?_⟩
  rw [singleLine_iff, summary, hbreaks, List.flatMap_eq_nil_iff]
  exact forall₂_congr fun t _ => singleLine_iff.symm

/-- A text of two lines in quotes, written with an escape. -/
def twoLines : Node := .leaf (.string "x\ny") 1

/-- It is read from a single line, and its summary has two. -/
theorem not_singleLine_twoLines :
    (∃ s', (grammar 12).assignment (startOf "\"x\\ny\"") = .ok twoLines s') ∧
      IsProduced twoLines ∧ summary twoLines = "\"x\ny\"" ∧ ¬SingleLine (summary twoLines) := by
  have hread : ∃ s', (grammar 12).assignment (startOf "\"x\\ny\"") = .ok twoLines s' := ⟨_, rfl⟩
  have hsummary : summary twoLines = "\"x\ny\"" := by decide
  refine ⟨hread, .assignment hread.choose_spec, hsummary, fun hsingle => ?_⟩
  rw [hsummary] at hsingle
  exact (hsingle '\n' (by decide)).1 rfl

end Expression

end JsxWidgets
