import JsxWidgets.Proofs.Expression.Paths
import JsxWidgets.Proofs.Places.Handlers

/-!
# What a scan sees of the code inside a handler

The scan of a handler is meant to be shallow: what stands in a function inside the handler, or in a
call in the arguments of another call, is to make no difference. `FunctionBody.veil` draws a veil
over such code. Two bodies that look alike under the veil differ in nothing else.

The veil is not quite tight. A call is told by what it calls, and if that has no path, by its
summary, which may show the code of a function or of a call that stands there. The name of a
function expression is taken for a reference. And a call in an optional chain is no call to a scan.
These are all the glimpses that a scan catches of veiled code (`FunctionBody.glimpses`): bodies that
look alike under the veil, with the same glimpses, have the same scan (`scan_eq_of_veil_eq`).
Without the second condition they need not (`not_scan_eq_of_veil_eq`).

The proof follows both bodies side by side. At every node there are as many glimpses in one as in
the other, and the findings are the same if these are (`Handler.Told`). So where glimpses are
joined, they can be told apart again.
-/

namespace JsxWidgets

open Syntax Expression

namespace Handler

/-! ### The veil -/

/-- Whether the parts of a construct are veiled: it is a function, or a call in the arguments of a
call. -/
def isVeiled (inArguments : Bool) : Form → Bool
  | .arrow | .functionExpr | .fn => true
  | .call | .optCall => inArguments
  | _ => false

/-- Whether a part of a construct is in the arguments of a call. -/
def isArgument (inArguments : Bool) (form : Form) (number : Nat) : Bool :=
  match form with
  | .call | .optCall => inArguments || number = 1
  | _ => inArguments

mutual

/-- **A tree with a veil over functions, and over calls in the arguments of calls.** Places do not
show either. -/
def veil (inArguments : Bool) : Node → Node
  | ⟨form, _, parts⟩ =>
    ⟨form, 0, if isVeiled inArguments form then [] else veils inArguments form 0 parts⟩

/-- The parts of a construct from the given number on, with a veil over them. -/
def veils (inArguments : Bool) (form : Form) (number : Nat) : List Node → List Node
  | [] => []
  | n :: ns =>
    veil (isArgument inArguments form number) n :: veils inArguments form (number + 1) ns

end

/-! ### Glimpses -/

/-- Whether a scan passes over a construct: it is a function, or a call that the scan meets in the
arguments of a call. -/
def isPassedOver (inArguments : Bool) : Form → Bool
  | .arrow | .fn => true
  | .call => inArguments
  | _ => false

/-- What a scan sees of the veiled code at a node: what it finds in veiled code that it does not
pass over, and what a call shows that calls something without a path. The context says whether the
node is in arguments, for the scan and for the veil. -/
def glimpse (vars : Variables) (c : Bool × Bool) (n : Node) : List (List Finding) :=
  if isPassedOver c.1 n.form then []
  else if isVeiled c.2 n.form then [(survey vars).run c.1 n]
  else if n.form = .call ∧ calleePath? n = none then [callFindings vars n]
  else []

/-- How the parts of a node are entered for glimpses: as for the scan, up to the veil. -/
def enterGlimpsed (c : Bool × Bool) (n : Node) (number : Nat) : Option (Bool × Bool) :=
  if isVeiled c.2 n.form then none
  else (enter c.1 n number).map fun inner => (inner, isArgument c.2 n.form number)

/-- The walk that collects the glimpses of a scan. -/
def glimpses (vars : Variables) : Survey (Bool × Bool) (List Finding) :=
  ⟨glimpse vars, enterGlimpsed⟩

end Handler

/-- **A body with a veil over the functions in it, and over calls in the arguments of calls.** -/
def FunctionBody.veil : FunctionBody → FunctionBody
  | .block statements => .block (statements.map (Handler.veil false))
  | .value e => .value (Handler.veil false e)

/-- **What a scan sees of the veiled code of a body.** -/
def FunctionBody.glimpses (vars : Handler.Variables) (body : FunctionBody) :
    List (List Handler.Finding) :=
  (Handler.glimpses vars).runAll (false, false) body.roots

namespace Handler

variable {vars : Variables} {inArguments scanned : Bool} {n n' : Node}

/-! ### What is read through the veil -/

@[simp] theorem form_veil (n : Node) : (veil inArguments n).form = n.form := by
  obtain ⟨form, place, parts⟩ := n
  rw [veil]

theorem unwrap_veil (e : Node) : (veil inArguments e).unwrap = veil inArguments e.unwrap := by
  induction e using Node.induction_below with
  | step e ih =>
    obtain ⟨form, place, parts⟩ := e
    cases form
    case paren | asConst | nonNull =>
      match parts with
      | [e] => exact ih e (Node.first_mem_nodesOf e [])
      | [] | _ :: _ :: _ => rfl
    case asType | satisfies =>
      match parts with
      | [e, type] => exact ih e (Node.first_mem_nodesOf e [type])
      | [] | [_] | _ :: _ :: _ :: _ => rfl
    all_goals rfl

theorem selectorText?_veil (selector : Node) :
    selectorText? (veil inArguments selector) = selectorText? selector := by
  obtain ⟨form, place, parts⟩ := selector
  cases form
  case computed =>
    match parts with
    | [key] =>
      simp only [veil, veils, isVeiled, isArgument, Bool.false_eq_true, if_false, selectorText?,
        unwrap_veil, form_veil]
    | [] | _ :: _ :: _ => rfl
  all_goals rfl

/-- Nothing in a path is veiled. -/
theorem path?_veil (e : Node) : path? (veil inArguments e) = path? e := by
  induction e using Node.induction_below with
  | step e ih =>
    obtain ⟨form, place, parts⟩ := e
    cases form
    -- the wrappers are never veiled, and the path is that of what they hold
    case paren | asConst | nonNull =>
      match parts with
      | [e] => exact ih e (Node.first_mem_nodesOf e [])
      | [] | _ :: _ :: _ => rfl
    case asType | satisfies =>
      match parts with
      | [e, type] => exact ih e (Node.first_mem_nodesOf e [type])
      | [] | [_] | _ :: _ :: _ :: _ => rfl
    -- a member is not veiled in either position, so its object keeps its path
    case member =>
      match parts with
      | [object, selector] =>
        have hobject := ih object (Node.first_mem_nodesOf object [selector])
        simp only [veil, veils, isVeiled, isArgument, Bool.false_eq_true, if_false, path?, hobject,
          selectorText?_veil]
      | [] | [_] | _ :: _ :: _ :: _ => rfl
    all_goals rfl

theorem stateKey?_veil (n : Node) : stateKey? (veil inArguments n) = stateKey? n := by
  obtain ⟨form, place, parts⟩ := n
  cases form
  case member | optMember =>
    match parts with
    | [object, selector] =>
      simp only [veil, veils, isVeiled, isArgument, Bool.false_eq_true, if_false, stateKey?,
        path?_veil, form_veil]
    | [] | [_] | _ :: _ :: _ :: _ => rfl
  all_goals rfl

theorem veil_of_isVeiled_eq_false (h : isVeiled inArguments n.form = false) :
    veil inArguments n = ⟨n.form, 0, veils inArguments n.form 0 n.parts⟩ := by
  obtain ⟨form, place, parts⟩ := n
  rw [veil, h]
  rfl

section Alike

variable (hveil : veil inArguments n = veil inArguments n')
include hveil

theorem form_eq_of_veil_eq : n.form = n'.form :=
  (form_veil n).symm.trans ((congrArg Node.form hveil).trans (form_veil n'))

theorem stateKey?_eq_of_veil_eq : stateKey? n = stateKey? n' :=
  (stateKey?_veil n).symm.trans ((congrArg stateKey? hveil).trans (stateKey?_veil n'))

theorem veils_eq_of_veil_eq (hform : isVeiled inArguments n.form = false) :
    veils inArguments n.form 0 n.parts = veils inArguments n.form 0 n'.parts := by
  have hsame := form_eq_of_veil_eq hveil
  rw [veil_of_isVeiled_eq_false hform, veil_of_isVeiled_eq_false (hsame ▸ hform), ← hsame] at hveil
  exact congrArg Node.parts hveil

/-- The same parts are entered on both sides. -/
theorem enter_eq_of_veil_eq (number : Nat) : enter scanned n number = enter scanned n' number := by
  rw [enter.eq_def, enter.eq_def, form_eq_of_veil_eq hveil, stateKey?_eq_of_veil_eq hveil]

end Alike

/-! ### What glimpses tell -/

/-- **Findings that are told by glimpses**: there are as many glimpses on both sides, and where they
are the same, so are the findings. -/
structure Told (gs gs' : List (List Finding)) (fs fs' : List Finding) : Prop where
  /-- The glimpses match one by one. -/
  length : gs.length = gs'.length
  /-- The findings differ only if the glimpses do. -/
  findings : gs = gs' → fs = fs'

theorem Told.same (fs : List Finding) : Told [] [] fs fs := ⟨rfl, fun _ => rfl⟩

/-- What is found is all that there is to a glimpse. -/
theorem Told.glimpse (fs fs' : List Finding) : Told [fs] [fs'] fs fs' :=
  ⟨rfl, fun h => (List.cons.inj h).1⟩

theorem Told.append {gs gs' hs hs' : List (List Finding)} {fs fs' es es' : List Finding}
    (h : Told gs gs' fs fs') (h' : Told hs hs' es es') :
    Told (gs ++ hs) (gs' ++ hs') (fs ++ es) (fs' ++ es') := by
  refine ⟨by rw [List.length_append, List.length_append, h.length, h'.length], fun hjoined => ?_⟩
  obtain ⟨hgs, hhs⟩ := List.append_inj hjoined h.length
  rw [h.findings hgs, h'.findings hhs]

/-! ### The scan below the veil -/

/-- Nothing is found in what a scan passes over. -/
theorem run_of_isPassedOver (h : isPassedOver scanned n.form = true) :
    (survey vars).run scanned n = [] := by
  -- A function, or a call among the arguments of another one: there is no note, and no part is
  -- entered.
  have hforms : n.form = .arrow ∨ n.form = .fn ∨ (n.form = .call ∧ scanned = true) := by
    unfold isPassedOver at h
    split at h
    next harrow => exact Or.inl harrow
    next hfn => exact Or.inr (Or.inl hfn)
    next hcall => exact Or.inr (Or.inr ⟨hcall, h⟩)
    next => cases h
  have hnote : (survey vars).note scanned n = [] := by
    change note vars scanned n = []
    rw [note.eq_def]
    rcases hforms with hform | hform | ⟨hform, hinner⟩
    · rw [hform]
      rfl
    · rw [hform]
      rfl
    · rw [hform]
      exact if_pos hinner
  have henter : ∀ number, (survey vars).enter scanned n number = none := by
    intro number
    change enter scanned n number = none
    rw [enter.eq_def]
    rcases hforms with hform | hform | ⟨hform, hinner⟩
    · rw [hform]
    · rw [hform]
    · rw [hform, hinner]
      rfl
  rw [Survey.run_eq, hnote, Survey.runParts_of_forall_skip fun number _ => henter number]
  rfl

/-- Veiled code is passed over, or all that is found in it is glimpsed. -/
theorem told_of_isVeiled (h : isVeiled inArguments n.form = true) (hsame : n.form = n'.form) :
    Told ((glimpses vars).run (scanned, inArguments) n)
      ((glimpses vars).run (scanned, inArguments) n') ((survey vars).run scanned n)
      ((survey vars).run scanned n') := by
  -- a veiled node is seen as one glimpse of its whole run, and is not entered
  have hrun : ∀ k : Node, k.form = n.form → (glimpses vars).run (scanned, inArguments) k
      = if isPassedOver scanned k.form then [] else [(survey vars).run scanned k] := by
    intro k hk
    have hveiled : isVeiled inArguments k.form = true := hk ▸ h
    have henter : ∀ number, (glimpses vars).enter (scanned, inArguments) k number = none :=
      fun number => if_pos hveiled
    rw [Survey.run_eq, Survey.runParts_of_forall_skip fun number _ => henter number,
      List.append_nil]
    change glimpse vars (scanned, inArguments) k = _
    rw [glimpse, if_pos hveiled]
  rw [hrun n rfl, hrun n' hsame.symm, ← hsame]
  split
  next hpassed =>
    rw [run_of_isPassedOver hpassed, run_of_isPassedOver (hsame ▸ hpassed)]
    exact Told.same []
  next => exact Told.glimpse _ _

/-! ### The scan above the veil -/

/-- A call that calls a path is told by it. -/
theorem callFindings_of_calleePath? {path : String} (h : calleePath? n = some path) :
    callFindings vars n = calleeFindings vars path := by
  obtain ⟨place, callee, rest, rfl, hpath⟩ := calleePath?_eq_some_iff.mp h
  rw [callFindings_call, hpath]
  obtain ⟨form, p, parts⟩ := callee
  cases form
  case superCallee | importCallee => cases hpath
  all_goals rfl

theorem calleePath?_veil (hform : isVeiled inArguments n.form = false) :
    calleePath? (veil inArguments n) = calleePath? n := by
  rw [veil_of_isVeiled_eq_false hform]
  obtain ⟨form, place, parts⟩ := n
  cases form
  case call =>
    cases parts with
    | nil => rfl
    | cons callee rest => exact path?_veil callee
  all_goals rfl

section Alike

variable (hveil : veil inArguments n = veil inArguments n')
  (hform : isVeiled inArguments n.form = false)
include hveil hform

/-- A call that shows tells the same on both sides, or is glimpsed. -/
theorem told_call (hcall : n.form = .call) :
    Told (glimpse vars (scanned, inArguments) n) (glimpse vars (scanned, inArguments) n')
      (note vars scanned n) (note vars scanned n') := by
  have hsame := form_eq_of_veil_eq hveil
  have hpath : calleePath? n' = calleePath? n := by
    rw [← calleePath?_veil hform, hveil, calleePath?_veil (hsame ▸ hform)]
  have hnote : ∀ k : Node, k.form = n.form →
      note vars scanned k = if scanned then [] else callFindings vars k := by
    intro k hk
    rw [note, hk.trans hcall]
  have hglimpse : ∀ k : Node, k.form = n.form → glimpse vars (scanned, inArguments) k
      = if scanned then [] else if calleePath? k = none then [callFindings vars k] else [] := by
    intro k hk
    have hvisible : isVeiled inArguments .call = false := hcall ▸ hform
    simp only [glimpse, hk.trans hcall, isPassedOver, hvisible, Bool.false_eq_true, if_false,
      true_and]
  rw [hnote n rfl, hnote n' hsame.symm, hglimpse n rfl, hglimpse n' hsame.symm, hpath]
  split
  next => exact Told.same []
  next =>
    -- Whether there is a path shows through the veil. Without one, the call itself is a glimpse.
    cases hcallee : calleePath? n with
    | some path =>
      rw [callFindings_of_calleePath? hcallee, callFindings_of_calleePath? (hpath.trans hcallee)]
      exact Told.same _
    | none => exact Told.glimpse _ _

theorem told_note :
    Told (glimpse vars (scanned, inArguments) n) (glimpse vars (scanned, inArguments) n')
      (note vars scanned n) (note vars scanned n') := by
  by_cases hcall : n.form = .call
  · exact told_call hveil hform hcall
  · have hsame := form_eq_of_veil_eq hveil
    have hnote : note vars scanned n = note vars scanned n' := by
      rw [note.eq_def, note.eq_def, hsame, stateKey?_eq_of_veil_eq hveil]
      split
      next hcall' => exact absurd (hsame.trans hcall') hcall
      all_goals rfl
    -- a visible node that is no call leaves no glimpse of its own
    have hglimpse : ∀ k : Node, k.form = n.form → glimpse vars (scanned, inArguments) k = [] := by
      intro k hk
      have hvisible := Bool.eq_false_iff.mp (hk.symm ▸ hform)
      have hnocall : ¬ (k.form = .call ∧ calleePath? k = none) := fun h => hcall (hk ▸ h.1)
      rw [glimpse, if_neg hvisible, if_neg hnocall, ite_self]
    rw [hglimpse n rfl, hglimpse n' hsame.symm, hnote]
    exact Told.same _

/-- The parts of a construct that shows are followed side by side. -/
theorem told_runParts {number : Nat} {parts parts' : List Node}
    (hparts : veils inArguments n.form number parts = veils inArguments n.form number parts')
    (ih : ∀ part ∈ parts, ∀ inner entered part', veil inner part = veil inner part' →
      Told ((glimpses vars).run (entered, inner) part) ((glimpses vars).run (entered, inner) part')
        ((survey vars).run entered part) ((survey vars).run entered part')) :
    Told ((glimpses vars).runParts (scanned, inArguments) n number parts)
      ((glimpses vars).runParts (scanned, inArguments) n' number parts')
      ((survey vars).runParts scanned n number parts)
      ((survey vars).runParts scanned n' number parts') := by
  have hsame := form_eq_of_veil_eq hveil
  have henter : ∀ number,
      (survey vars).enter scanned n' number = (survey vars).enter scanned n number :=
    fun number => (enter_eq_of_veil_eq hveil number).symm
  -- The glimpses go where the survey goes, and remember whether they are among arguments.
  have hglimpsed : ∀ k : Node, k.form = n.form → ∀ number,
      (glimpses vars).enter (scanned, inArguments) k number
        = ((survey vars).enter scanned k number).map
          fun inner => (inner, isArgument inArguments n.form number) := by
    intro k hk number
    have hvisible := Bool.eq_false_iff.mp (hk.symm ▸ hform)
    change enterGlimpsed (scanned, inArguments) k number = _
    rw [enterGlimpsed, if_neg hvisible, hk]
    rfl
  -- Both runs go through the parts in step, since the parts are veiled alike.
  induction parts generalizing number parts' with
  | nil =>
    cases parts' with
    | nil =>
      simp only [Survey.runParts_nil]
      exact Told.same []
    | cons part' parts' => cases hparts
  | cons part parts ihparts =>
    cases parts' with
    | nil => cases hparts
    | cons part' parts' =>
      obtain ⟨hpart, hrest⟩ := List.cons.inj hparts
      rw [Survey.runParts_cons, Survey.runParts_cons, Survey.runParts_cons, Survey.runParts_cons,
        hglimpsed n rfl, hglimpsed n' hsame.symm, henter]
      refine Told.append ?_ (ihparts hrest fun k hk => ih k (List.mem_cons_of_mem part hk))
      cases (survey vars).enter scanned n number with
      | none => exact Told.same []
      | some inner => exact ih part List.mem_cons_self _ inner part' hpart

end Alike

/-- **Two trees that look alike under the veil** are told apart by glimpses only. -/
theorem told_run (hveil : veil inArguments n = veil inArguments n') :
    Told ((glimpses vars).run (scanned, inArguments) n)
      ((glimpses vars).run (scanned, inArguments) n') ((survey vars).run scanned n)
      ((survey vars).run scanned n') := by
  -- The induction is on the first tree. The second one has the same forms as far as the veil shows
  -- them, and the contexts change from node to node.
  induction n using Node.induction_below generalizing inArguments scanned n' with
  | step n ih =>
    cases hform : isVeiled inArguments n.form with
    | true => exact told_of_isVeiled hform (form_eq_of_veil_eq hveil)
    | false =>
      rw [Survey.run_eq, Survey.run_eq, Survey.run_eq, Survey.run_eq]
      refine Told.append (told_note hveil hform) ?_
      refine told_runParts hveil hform (veils_eq_of_veil_eq hveil hform) ?_
      exact fun part hpart inner entered part' h => ih part (Node.mem_nodesOf_of_mem hpart) h

theorem told_runAll {ns ns' : List Node}
    (h : ns.map (veil inArguments) = ns'.map (veil inArguments)) :
    Told ((glimpses vars).runAll (scanned, inArguments) ns)
      ((glimpses vars).runAll (scanned, inArguments) ns') ((survey vars).runAll scanned ns)
      ((survey vars).runAll scanned ns') := by
  induction ns generalizing ns' with
  | nil =>
    cases ns' with
    | nil => exact Told.same []
    | cons n' ns' => cases h
  | cons n ns ih =>
    cases ns' with
    | nil => cases h
    | cons n' ns' =>
      obtain ⟨hn, hns⟩ := List.cons.inj h
      rw [Survey.runAll_cons, Survey.runAll_cons, Survey.runAll_cons, Survey.runAll_cons]
      exact (told_run hn).append (ih hns)

end Handler

theorem FunctionBody.told_roots {b b' : FunctionBody} (hveil : b.veil = b'.veil)
    (vars : Handler.Variables) :
    Handler.Told (b.glimpses vars) (b'.glimpses vars)
      ((Handler.survey vars).runAll false b.roots)
      ((Handler.survey vars).runAll false b'.roots) := by
  refine Handler.told_runAll ?_
  cases b with
  | block statements =>
    cases b' with
    | block statements' => exact FunctionBody.block.inj hveil
    | value e' => cases hveil
  | value e =>
    cases b' with
    | block statements' => cases hveil
    | value e' => exact congrArg (fun n => [n]) (FunctionBody.value.inj hveil)

/-- **Bodies that look alike under the veil, with the same glimpses, have the same scan.** -/
theorem scan_eq_of_veil_eq {b b' : FunctionBody} (hveil : b.veil = b'.veil)
    {vars : Handler.Variables} (hglimpses : b.glimpses vars = b'.glimpses vars) :
    Handler.scan vars b = Handler.scan vars b' := by
  rw [Handler.scan, Handler.scan, (b.told_roots hveil vars).findings hglimpses]

/-! ### Functions that are called where they are written -/

/-- A call without arguments. -/
def bareCall (place : Place) (callee : Node) : Node := ⟨.call, place, [callee, .list [], .list []]⟩

/-- The body `(() => result)()`, where the result may be statements in braces. -/
def calledArrow (result : Node) : FunctionBody :=
  .value (bareCall 1 ⟨.paren, 1, [⟨.arrow, 2, [.list [], result, .list [], .absent]⟩]⟩)

/-- Statements in braces, of which there is one. -/
def blockOf (e : Node) : Node := ⟨.body, 8, [⟨.exprStmt, 10, [e]⟩]⟩

/-- The body `g(e)`. -/
def handed (e : Node) : FunctionBody :=
  .value ⟨.call, 1, [.leaf (.name "g") 1, .list [⟨.item, 3, [e]⟩], .list []]⟩

/-- The expression `function name() {}`. -/
def namedFunction (name : String) : Node :=
  ⟨.functionExpr, 3,
    [.leaf (.binder name) 12, ⟨.fn, 3, [.list [], ⟨.body, 19, []⟩, .list [], .absent]⟩]⟩

/-- The expression `name?.()`. -/
def optionalCall (name : String) : Node :=
  ⟨.optCall, 3, [.leaf (.name name) 3, .list [], .list []]⟩

/-- Statements in a function do not show, even where the function is called:
`(() => { fetch(); })()` is scanned like `(() => { x; })()`. -/
theorem scan_eq_of_veil_eq_block :
    let request := calledArrow (blockOf (bareCall 10 (.leaf (.name "fetch") 10)))
    let reference := calledArrow (blockOf (.leaf (.name "x") 10))
    request.veil = reference.veil ∧
      request.glimpses [("x", "setX")] = reference.glimpses [("x", "setX")] ∧
      Handler.scan [("x", "setX")] request = Handler.scan [("x", "setX")] reference :=
  ⟨rfl, rfl, scan_eq_of_veil_eq rfl rfl⟩

/-- The result of a function shows where the function is called, and the name of a function
expression and a call in an optional chain show in the arguments of a call. -/
theorem not_scan_eq_of_veil_eq :
    Handler.scan [] (calledArrow (.leaf (.name "fetch") 8)) = ([], [.apiCall]) ∧
      Handler.scan [] (calledArrow (.leaf (.name "x") 8)) = ([], []) ∧
      Handler.scan [("n", "setN")] (handed (namedFunction "n")) = (["n"], []) ∧
      Handler.scan [("n", "setN")] (handed (namedFunction "m")) = ([], []) ∧
      Handler.scan [("n", "setN")] (handed (optionalCall "setN")) = (["n"], [.setState]) ∧
      Handler.scan [("n", "setN")] (handed (optionalCall "h")) = ([], []) ∧
      ¬ ∀ vars b b', b.veil = b'.veil → Handler.scan vars b = Handler.scan vars b' := by
  have hfetch : Handler.scan [] (calledArrow (.leaf (.name "fetch") 8)) = ([], [.apiCall]) := by
    decide
  have hx : Handler.scan [] (calledArrow (.leaf (.name "x") 8)) = ([], []) := by decide
  refine ⟨hfetch, hx, by decide, by decide, by decide, by decide, fun h => ?_⟩
  have hsame := h [] (calledArrow (.leaf (.name "fetch") 8)) (calledArrow (.leaf (.name "x") 8)) rfl
  rw [hfetch, hx] at hsame
  cases hsame

end JsxWidgets
