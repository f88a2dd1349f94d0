import JsxWidgets.Component
import JsxWidgets.Proofs.Syntax.Surveys

/-!
# The returns of markup in a body

A scan of the statements of a body looks for the first return of markup. All returns of markup that
belong to the body, whatever they are nested in, are found by a survey that passes over nothing but
functions and classes (`markupReturns`). It keeps track of where the scan of the statements would be
(`ScanPlace`), and so says of each return whether the scan comes by.

The scan finds the first return that it comes by (`bodyMarkup?_eq`). So it finds the first return of
all if that is one of those, and this is the only reason but for a return that happens to give the
same markup later on (`scanComplete_iff`). The grammar has three constructs with statements that the
scan leaves aside: the cleanup of an exception handler, the statement in the scope of an object, and
the items of a namespace.
-/

namespace JsxWidgets

open Syntax Expression

/-! ### Returns -/

/-- **A return of markup.** -/
structure MarkupReturn where
  /-- The markup, without parentheses and assertions around it. -/
  markup : Node
  /-- Whether a scan of the statements comes by. -/
  scanned : Bool

/-- Where a scan of statements stands. -/
inductive ScanPlace where
  /-- At a statement. -/
  | statement
  /-- At a row of statements. -/
  | row
  /-- Elsewhere; it leaves the node aside. -/
  | aside
  deriving DecidableEq

/-- Whether returns inside a node belong to a function or to a member of a class. -/
def ownsReturns (n : Node) : Bool :=
  match n.form with
  | .fn | .arrow | .getter | .setter | .cls => true
  | _ => false

/-- How the scan goes on from a statement to a part of it. -/
def scanPart (n : Node) (number : Nat) : ScanPlace :=
  match n.form, n.parts, number with
  | .block, _, _ => .statement
  | .branch, [_, _, _], 1 => .statement
  | .branch, [_, _, _], 2 => .statement
  | .switch, _ :: _, _ + 1 => .statement
  | .case, _ :: _, _ + 1 => .statement
  | .attempt, [⟨_, _, _⟩, _, _], 0 => .row
  | .attempt, [⟨_, _, _⟩, _, _], 1 => .statement
  | .handler, [_, ⟨_, _, _⟩], 1 => .row
  | .labeled, [_, _], 1 => .statement
  | .forLoop, [_, _, _, _], 3 => .statement
  | .forEach, [_, _, _], 2 => .statement
  | .whileLoop, [_, _], 1 => .statement
  | .doLoop, [_, _], 1 => .statement
  | _, _, _ => .aside

/-- **The survey of all returns of markup**, outside functions and classes. -/
def returnSurvey : Survey ScanPlace MarkupReturn where
  note place n :=
    match n with
    | ⟨.give, _, [e]⟩ => if isMarkup e then [⟨e.unwrap, place = .statement⟩] else []
    | _ => []
  enter place n number :=
    match place with
    | .row => some .statement
    | .statement => if ownsReturns n then none else some (scanPart n number)
    | .aside => if ownsReturns n then none else some .aside

/-- **The returns of markup in a body**, in order. -/
def markupReturns (body : Node) : List MarkupReturn := returnSurvey.run .row body

/-- The markup of the first return that the scan comes by. -/
def firstScanned (returns : List MarkupReturn) : Option Node :=
  (returns.find? (·.scanned)).map (·.markup)

/-! ### What the scan finds -/

@[simp] theorem firstScanned_nil : firstScanned [] = none := rfl

theorem firstScanned_append (rs ss : List MarkupReturn) :
    firstScanned (rs ++ ss) = (firstScanned rs).or (firstScanned ss) := by
  rw [firstScanned, List.find?_append, Option.map_or]
  rfl

section Parts

variable {place : ScanPlace} {n : Node}

/-- Parts that the scan leaves aside, if nothing is scanned within such parts. -/
theorem firstScanned_runParts_aside {parts : List Node}
    (haside : ∀ part ∈ parts, firstScanned (returnSurvey.run .aside part) = none) {number : Nat}
    (henter : ∀ later, number ≤ later →
      returnSurvey.enter place n later = none ∨ returnSurvey.enter place n later = some .aside) :
    firstScanned (returnSurvey.runParts place n number parts) = none := by
  -- the parts after the first start at a higher number, hence the bound on it
  induction parts generalizing number with
  | nil => rw [Survey.runParts_nil, firstScanned_nil]
  | cons part parts ih =>
    have hrest := ih (fun p hp => haside p (List.mem_cons_of_mem part hp))
      (fun later hlater => henter later (Nat.le_of_succ_le hlater))
    rw [Survey.runParts_cons, firstScanned_append, hrest, Option.or_none]
    rcases henter number (Nat.le_refl number) with h | h
    · rw [h, Option.elim_none, firstScanned_nil]
    · rw [h, Option.elim_some]
      exact haside part List.mem_cons_self

/-- Only a return among the statements counts as scanned. -/
theorem firstScanned_note (hplace : place ≠ .statement) :
    firstScanned (returnSurvey.note place n) = none := by
  dsimp only [returnSurvey]
  split
  · split
    · rw [decide_eq_false hplace]
      rfl
    · rfl
  · rfl

/-- **Nothing is scanned within what is left aside.** -/
theorem firstScanned_run_aside (n : Node) : firstScanned (returnSurvey.run .aside n) = none := by
  induction n using Node.induction_below with
  | step n ih =>
    have hparts : firstScanned (returnSurvey.runParts .aside n 0 n.parts) = none := by
      refine firstScanned_runParts_aside (fun part hpart => ih part (Node.mem_nodesOf_of_mem hpart))
        fun later _ => ?_
      dsimp only [returnSurvey]
      split
      · exact Or.inl rfl
      · exact Or.inr rfl
    rw [Survey.run_eq, firstScanned_append, firstScanned_note (by decide), hparts, Option.none_or]

/-- Statements in a row, if what is known of the scan holds of each of them. -/
theorem firstScanned_runParts_statements {parts : List Node}
    (hstatement : ∀ s ∈ parts,
      firstScanned (returnSurvey.run .statement s) = returnedMarkup? s) {number : Nat}
    (henter : ∀ later, number ≤ later → returnSurvey.enter place n later = some .statement) :
    firstScanned (returnSurvey.runParts place n number parts) = firstReturnedMarkup? parts := by
  induction parts generalizing number with
  | nil => rw [Survey.runParts_nil, firstReturnedMarkup?, firstScanned_nil]
  | cons s parts ih =>
    have hrest := ih (fun s' hs' => hstatement s' (List.mem_cons_of_mem s hs'))
      (fun later hlater => henter later (Nat.le_of_succ_le hlater))
    rw [Survey.runParts_cons, firstScanned_append, hrest, henter number (Nat.le_refl number),
      Option.elim_some, hstatement s List.mem_cons_self, firstReturnedMarkup?]

/-- The scan goes on to one part after the other. -/
theorem firstScanned_runParts_cons {number : Nat} (inner : ScanPlace)
    (henter : returnSurvey.enter place n number = some inner) (part : Node) (parts : List Node) :
    firstScanned (returnSurvey.runParts place n number (part :: parts))
      = (firstScanned (returnSurvey.run inner part)).or
          (firstScanned (returnSurvey.runParts place n (number + 1) parts)) := by
  rw [Survey.runParts_cons, henter, Option.elim_some, firstScanned_append]

/-- A part that is left aside is passed over. -/
theorem firstScanned_runParts_pass {number : Nat}
    (henter : returnSurvey.enter place n number = some .aside) (part : Node) (parts : List Node) :
    firstScanned (returnSurvey.runParts place n number (part :: parts))
      = firstScanned (returnSurvey.runParts place n (number + 1) parts) := by
  rw [firstScanned_runParts_cons .aside henter, firstScanned_run_aside, Option.none_or]

theorem firstScanned_runParts_last {number : Nat} (inner : ScanPlace)
    (henter : returnSurvey.enter place n number = some inner) (part : Node) :
    firstScanned (returnSurvey.runParts place n number [part])
      = firstScanned (returnSurvey.run inner part) := by
  rw [firstScanned_runParts_cons inner henter, Survey.runParts_nil, firstScanned_nil,
    Option.or_none]

/-- Nothing is noted at a node that is no return. -/
theorem firstScanned_run (hnote : returnSurvey.note place n = []) :
    firstScanned (returnSurvey.run place n)
      = firstScanned (returnSurvey.runParts place n 0 n.parts) := by
  rw [Survey.run_eq, hnote, List.nil_append]

end Parts

/-- A row of statements, if what is known of the scan holds of each of them. -/
theorem firstScanned_run_row (body : Node)
    (hstatement : ∀ s ∈ body.parts,
      firstScanned (returnSurvey.run .statement s) = returnedMarkup? s) :
    firstScanned (returnSurvey.run .row body) = firstReturnedMarkup? body.parts := by
  rw [Survey.run_eq, firstScanned_append, firstScanned_note (by decide), Option.none_or]
  exact firstScanned_runParts_statements hstatement fun _ _ => rfl

/-- **The first return that the scan comes by is the one it finds.** -/
theorem firstScanned_run_statement (n : Node) :
    firstScanned (returnSurvey.run .statement n) = returnedMarkup? n := by
  -- The scan goes down two levels at once where the statements of a part stand in a row.
  induction n using Node.induction_below with
  | step n ih =>
    obtain ⟨form, place, parts⟩ := n
    have hone : ∀ s ∈ parts, firstScanned (returnSurvey.run .statement s) = returnedMarkup? s :=
      fun s hs => ih s (Node.mem_nodesOf_of_mem hs)
    have hrow : ∀ body ∈ parts,
        firstScanned (returnSurvey.run .row body) = firstReturnedMarkup? body.parts := by
      intro body hbody
      refine firstScanned_run_row body fun s hs => ih s ?_
      exact Node.mem_nodesOf_of_mem_nodes (Node.mem_nodesOf_of_mem hbody)
        (Node.mem_nodes_of_below (Node.mem_nodesOf_of_mem hs))
    unfold returnedMarkup?
    split
    case h_1 e =>
      rw [Survey.run_mk, firstScanned_append, firstScanned_runParts_pass rfl, Survey.runParts_nil]
      dsimp only [returnSurvey]
      split <;> rfl
    case h_2 =>
      rw [firstScanned_run rfl]
      exact firstScanned_runParts_statements hone fun _ _ => rfl
    case h_3 test yes no =>
      rw [firstScanned_run rfl, firstScanned_runParts_pass rfl,
        firstScanned_runParts_cons .statement rfl, firstScanned_runParts_last .statement rfl,
        hone yes (by simp), hone no (by simp)]
    case h_4 | h_5 =>
      -- the subject or the test, with statements or cases behind it
      rw [firstScanned_run rfl, firstScanned_runParts_pass rfl]
      refine firstScanned_runParts_statements (fun s hs => hone s (List.mem_cons_of_mem _ hs))
        fun later hlater => ?_
      obtain ⟨later, rfl⟩ := Nat.exists_eq_add_of_le' hlater
      rfl
    case h_6 code handler cleanup =>
      rw [firstScanned_run rfl, firstScanned_runParts_cons .row rfl,
        firstScanned_runParts_cons .statement rfl, firstScanned_runParts_pass rfl,
        Survey.runParts_nil, firstScanned_nil, Option.or_none, hrow _ List.mem_cons_self,
        hone handler (by simp)]
    case h_7 =>
      rw [firstScanned_run rfl, firstScanned_runParts_pass rfl, firstScanned_runParts_last .row rfl]
      exact hrow _ (by simp)
    case h_8 | h_11 | h_12 =>
      rw [firstScanned_run rfl, firstScanned_runParts_pass rfl,
        firstScanned_runParts_last .statement rfl]
      exact hone _ (by simp)
    case h_9 =>
      rw [firstScanned_run rfl, firstScanned_runParts_pass rfl, firstScanned_runParts_pass rfl,
        firstScanned_runParts_pass rfl, firstScanned_runParts_last .statement rfl]
      exact hone _ (by simp)
    case h_10 =>
      rw [firstScanned_run rfl, firstScanned_runParts_pass rfl, firstScanned_runParts_pass rfl,
        firstScanned_runParts_last .statement rfl]
      exact hone _ (by simp)
    case h_13 =>
      -- No other node is a return, and none has a part that the scan goes on to.
      have hnote : returnSurvey.note .statement ⟨form, place, parts⟩ = [] := by
        dsimp only [returnSurvey]
        split
        next heq =>
          cases heq
          exfalso
          solve_by_elim
        next => rfl
      rw [firstScanned_run hnote]
      refine firstScanned_runParts_aside (fun part _ => firstScanned_run_aside part)
        fun later _ => ?_
      have haside : scanPart ⟨form, place, parts⟩ later = .aside := by
        unfold scanPart
        dsimp only
        split
        all_goals first | rfl | (exfalso; solve_by_elim)
      dsimp only [returnSurvey]
      rw [haside]
      split
      · exact Or.inl rfl
      · exact Or.inr rfl

/-- **What a scan of a body finds** is the first return that it comes by. -/
theorem bodyMarkup?_eq (place : Place) (statements : List Node) :
    bodyMarkup? ⟨.body, place, statements⟩
      = firstScanned (markupReturns ⟨.body, place, statements⟩) := by
  have hrow := firstScanned_run_row ⟨.body, place, statements⟩
    fun s _ => firstScanned_run_statement s
  rw [bodyMarkup?, markupReturns, hrow]

/-! ### Functions -/

/-- **The returns of markup of a function.** -/
def functionReturns (fn : Node) : List MarkupReturn :=
  match fn with
  | ⟨.fn, _, [_, ⟨.body, place, statements⟩, _, _]⟩ => markupReturns ⟨.body, place, statements⟩
  | _ => []

/-- What a function is found to return. -/
theorem functionMarkup?_eq (fn : Node) :
    functionMarkup? fn = firstScanned (functionReturns fn) := by
  unfold functionReturns
  split
  next => exact bodyMarkup?_eq _ _
  next hbody =>
    unfold functionMarkup?
    split
    next place params code types result =>
      unfold bodyMarkup?
      split
      next => exact absurd rfl (hbody _ _ _ _ _ _)
      next => rfl
    next => rfl

theorem isSome_firstScanned_iff {rs : List MarkupReturn} :
    (firstScanned rs).isSome ↔ ∃ r ∈ rs, r.scanned = true := by
  rw [firstScanned, Option.isSome_map, List.find?_isSome]

/-- What a return gives is markup. -/
theorem form_of_mem_markupReturns {body : Node} :
    ∀ r ∈ markupReturns body, r.markup.form = .markup := by
  refine Survey.forall_mem_run (fun place n r hr => ?_) ScanPlace.row body
  dsimp only [returnSurvey] at hr
  split at hr
  next e =>
    split at hr
    next hmarkup =>
      obtain rfl := List.mem_singleton.mp hr
      exact of_decide_eq_true hmarkup
    next => cases hr
  next => cases hr

theorem form_of_firstScanned {rs : List MarkupReturn} (h : ∀ r ∈ rs, r.markup.form = .markup)
    {x : Node} (hx : firstScanned rs = some x) : x.form = .markup := by
  obtain ⟨r, hr, rfl⟩ := Option.map_eq_some_iff.mp hx
  exact h r (List.mem_of_find?_eq_some hr)

theorem form_of_bodyMarkup? {body x : Node} (h : bodyMarkup? body = some x) : x.form = .markup := by
  have hbody := h
  unfold bodyMarkup? at h
  split at h
  next =>
    rw [bodyMarkup?_eq] at hbody
    exact form_of_firstScanned form_of_mem_markupReturns hbody
  next => cases h

theorem form_of_functionMarkup? {fn x : Node} (h : functionMarkup? fn = some x) :
    x.form = .markup := by
  unfold functionMarkup? at h
  split at h
  next => exact form_of_bodyMarkup? h
  next => cases h

theorem form_of_markup {e x : Node} (h : (if isMarkup e then some e.unwrap else none) = some x) :
    x.form = .markup := by
  split at h
  next hmarkup =>
    cases h
    exact of_decide_eq_true hmarkup
  next => cases h

theorem form_of_arrowMarkup? {fn x : Node} (h : arrowMarkup? fn = some x) : x.form = .markup := by
  unfold arrowMarkup? at h
  split at h
  next =>
    split at h
    next => exact form_of_bodyMarkup? h
    next => exact form_of_markup h
  next => cases h

/-! ### Completeness -/

/-- **The scan of a body is complete**: it finds markup exactly if the body returns some, and then
that of the first return. -/
structure ScanComplete (body : Node) : Prop where
  /-- There is something to be found if and only if it is found. -/
  found_iff : (bodyMarkup? body).isSome ↔ markupReturns body ≠ []
  /-- The markup that is found is that of the first return. -/
  first : ∀ x ∈ bodyMarkup? body, ∀ r ∈ (markupReturns body).head?, x = r.markup

theorem firstScanned_cons (r : MarkupReturn) (rs : List MarkupReturn) :
    firstScanned (r :: rs) = if r.scanned then some r.markup else firstScanned rs := by
  rw [firstScanned, List.find?_cons]
  cases r.scanned <;> rfl

/-- **When the scan is complete**: if there is no return, or the scan comes by the first one, or the
first one that it comes by gives the same markup. -/
theorem scanComplete_iff (place : Place) (statements : List Node) :
    ScanComplete ⟨.body, place, statements⟩ ↔
      ∀ r later, markupReturns ⟨.body, place, statements⟩ = r :: later →
        r.scanned = true ∨ firstScanned later = some r.markup := by
  have hfound := bodyMarkup?_eq place statements
  generalize hbody : (⟨.body, place, statements⟩ : Node) = body at hfound ⊢
  constructor
  · intro h r later hreturns
    rw [hreturns, firstScanned_cons] at hfound
    refine or_iff_not_imp_left.mpr fun hscanned => ?_
    rw [if_neg hscanned] at hfound
    -- Something is found, and it is the markup of the return that the scan leaves aside.
    obtain ⟨x, hx⟩ := Option.isSome_iff_exists.mp
      (h.found_iff.mpr (by rw [hreturns]; exact List.cons_ne_nil r later))
    rw [← hfound, hx, h.first x hx r (by rw [hreturns]; rfl)]
  · intro h
    cases hreturns : markupReturns body with
    | nil =>
      rw [hreturns, firstScanned_nil] at hfound
      refine ⟨?_, ?_⟩
      · rw [hfound, hreturns]
        simp
      · rw [hfound]
        rintro x ⟨⟩
    | cons r later =>
      have hmarkup : bodyMarkup? body = some r.markup := by
        rw [hfound, hreturns, firstScanned_cons]
        split
        next => rfl
        next hscanned => exact (h r later hreturns).resolve_left hscanned
      refine ⟨?_, ?_⟩
      · rw [hmarkup, hreturns]
        simp
      · rw [hmarkup, hreturns]
        rintro x ⟨⟩ r ⟨⟩
        rfl

/-- A body that returns markup in the cleanup of an exception handler only. -/
def cleanupReturn : Node :=
  ⟨.body, 14, [⟨.attempt, 16, [⟨.body, 20, []⟩, .absent,
    ⟨.body, 31, [⟨.give, 33, [⟨.markup, 40, [⟨.fragment, 40, []⟩]⟩]⟩]⟩]⟩]⟩

/-- The return is there, and nothing is found. -/
theorem not_scanComplete_cleanupReturn :
    bodyMarkup? cleanupReturn = none ∧ (markupReturns cleanupReturn).length = 1 ∧
      ¬ ScanComplete cleanupReturn := by
  have hnone : bodyMarkup? cleanupReturn = none := by decide +kernel
  refine ⟨hnone, rfl, fun h => ?_⟩
  have hfound := h.found_iff.mpr (by nofun)
  rw [hnone] at hfound
  cases hfound

end JsxWidgets
