import JsxWidgets.Proofs.Expression.Outline
import JsxWidgets.Proofs.Lowering.Attributes

/-!
# Values that are read alike

What the lowering makes of an expression among the children, or of the value of an attribute, goes
by the outline of the expression. Two values of attributes are alike (`GivenValue.Alike`) if their
expressions have the same outline or their markup the same summary, and everything that the rules
for attributes say of one they say of the other. Only a component looks further: it lowers the
markup that it is given.
-/

namespace JsxWidgets

open Syntax Expression

/-! ### Expressions among children -/

namespace Expression

/-- What a question says of outlines it says of expressions. -/
theorem eq_of_outline {β : Type} {f : Node → β} (hf : ∀ e, f e.outline = f e) {e e' : Node}
    (h : e.outline = e'.outline) : f e = f e' := by
  rw [← hf e, h, hf e']

/-- A summary does not look into markup. -/
theorem summary_outline (e : Node) : summary e.outline = summary e := keepsSummary e summaryDepth

end Expression

/-- Neither does the question for a plain text. -/
theorem plainText?_outline (e : Node) : plainText? e.outline = plainText? e := by
  simp only [plainText?, Node.unwrap_outline, Node.form_outline, summary_outline]

/-- What selects a member has two parts. -/
theorem selectsMap_eq_false {parts : List Node} (h : parts.length ≠ 2) (form : Form)
    (place : Place) : selectsMap ⟨form, place, parts⟩ = false := by
  unfold selectsMap
  split
  · next heq =>
    cases heq
    exact absurd rfl h
  · next heq =>
    cases heq
    exact absurd rfl h
  · rfl

/-- An access selects `map` exactly if that is its word. -/
theorem selectsMap_access {form : Form} (hform : form = .member ∨ form = .optMember)
    (place : Place) (object selector : Node) :
    selectsMap ⟨form, place, [object, selector]⟩ = decide (selector.form = .word "map") := by
  obtain ⟨f, p, ps⟩ := selector
  -- only the selector `map` is matched, with either way of accessing
  by_cases hmap : f = .word "map"
  · subst hmap
    rcases hform with rfl | rfl <;> rfl
  · rw [decide_eq_false hmap]
    unfold selectsMap
    split
    · next heq =>
      cases heq
      exact absurd rfl hmap
    · next heq =>
      cases heq
      exact absurd rfl hmap
    · rfl

/-- What a callee selects is not inside markup. -/
theorem selectsMap_outline (callee : Node) : selectsMap callee.outline = selectsMap callee := by
  obtain ⟨form, place, parts⟩ := callee
  cases form
  case member | optMember =>
    rw [Node.outline_mk (Or.inl (by decide))]
    by_cases hlength : parts.length = 2
    · obtain ⟨object, selector, rfl⟩ := List.length_eq_two.mp hlength
      rw [Node.outlines, Node.outlines, Node.outlines, selectsMap_access (by decide),
        selectsMap_access (by decide), Node.form_outline]
    · rw [selectsMap_eq_false hlength, selectsMap_eq_false (by rwa [Node.length_outlines])]
  case markup =>
    obtain ⟨parts', h⟩ := Node.outline_markup place parts
    rw [h]
    rfl
  all_goals rfl

/-- Whether something is mapped goes by what is called. -/
theorem isMapCall_outline (e : Node) : isMapCall e.outline = isMapCall e := by
  unfold isMapCall
  rw [Node.unwrap_outline]
  obtain ⟨form, place, parts⟩ := e.unwrap
  cases form
  case call | optCall =>
    rcases parts with _ | ⟨callee, more⟩
    · rfl
    · rw [Node.outline_mk (Or.inl (by decide)), Node.outlines]
      dsimp only
      rw [Node.unwrap_outline, selectsMap_outline]
  case markup =>
    obtain ⟨parts', h⟩ := Node.outline_markup place parts
    rw [h]
  all_goals rfl

/-- The message for an expression is that of its outline. -/
theorem shownMessage_outline (e : Node) : shownMessage e.outline = shownMessage e := by
  simp only [shownMessage, shownKind, Node.unwrap_outline, Node.form_outline, isMapCall_outline,
    summary_outline]

/-- So is the placeholder, with its report. -/
theorem placeholderFor_outline (e : Node) : placeholderFor e.outline = placeholderFor e := by
  rw [placeholderFor, placeholderFor, shownMessage_outline]

/-- And so is the list with that placeholder alone. -/
theorem lowerUnread_outline (e : Node) : lowerUnread e.outline = lowerUnread e := by
  rw [lowerUnread, lowerUnread, placeholderFor_outline]

/-- An expression in a text becomes the same pieces as its outline. -/
theorem expressionText_outline (e : Node) : expressionText e.outline = expressionText e := by
  simp only [expressionText, plainText?_outline, path?_outline, Node.unwrap_outline,
    Node.form_outline, summary_outline, shownMessage_outline]

/-! ### Class names -/

namespace Expression

/-- The static pieces of an operand lie outside of markup. -/
theorem operandPieces_outline (e : Node) : operandPieces e.outline = operandPieces e := by
  obtain ⟨form, place, parts⟩ := e
  cases form
  case paren | asConst | nonNull =>
    match parts with
    | [e] => exact operandPieces_outline e
    | [] | _ :: _ :: _ => rfl
  case asType | satisfies =>
    match parts with
    | [e, _] => exact operandPieces_outline e
    | [] | [_] | _ :: _ :: _ :: _ => rfl
  case conditional =>
    match parts with
    | [_, yes, no] =>
      exact congrArg₂ (· ++ ·) (operandPieces_outline yes) (operandPieces_outline no)
    | [] | [_] | [_, _] | _ :: _ :: _ :: _ :: _ => rfl
  -- markup has an outline of its own and no pieces
  case markup =>
    obtain ⟨parts', h⟩ := Node.outline_markup place parts
    rw [h]
    rfl
  all_goals rfl

/-- A sum is one of the outlines of its sides. -/
theorem summands?_outline (e : Node) :
    summands? e.outline = (summands? e).map (Prod.map Node.outline Node.outline) := by
  unfold summands?
  rw [Node.unwrap_outline]
  obtain ⟨form, place, parts⟩ := e.unwrap
  cases form
  case binary op =>
    match parts with
    | [l, r] => cases op <;> rfl
    | [] | [_] | _ :: _ :: _ :: _ => cases op <;> rfl
  case markup =>
    obtain ⟨parts', h⟩ := Node.outline_markup place parts
    rw [h]
    rfl
  all_goals rfl

/-- The pieces of a side lie outside of markup, whether it is a sum or not. -/
theorem sidePieces_outline (e : Node) : sidePieces e.outline = sidePieces e := by
  unfold sidePieces
  rw [summands?_outline]
  cases summands? e with
  | none => exact operandPieces_outline e
  | some sides =>
    exact congrArg₂ (· ++ ·) (operandPieces_outline sides.1) (operandPieces_outline sides.2)

/-- The static pieces of an expression are those of its outline. -/
theorem pieces_outline (e : Node) : pieces e.outline = pieces e := by
  unfold pieces
  rw [summands?_outline]
  cases summands? e with
  | none => exact operandPieces_outline e
  | some sides =>
    exact congrArg₂ (· ++ ·) (sidePieces_outline sides.1) (sidePieces_outline sides.2)

/-- Hence so are its class names. -/
theorem classTokens_outline (e : Node) : classTokens e.outline = classTokens e := by
  rw [classTokens, classTokens, pieces_outline]

end Expression

/-! ### Values of attributes -/

namespace GivenValue

/-- **Values that are read alike.** -/
inductive Alike : GivenValue → GivenValue → Prop
  /-- Both attributes stand alone. -/
  | standsAlone : Alike .standsAlone .standsAlone
  /-- The same text. -/
  | text (s : String) : Alike (.text s) (.text s)
  /-- Expressions that differ inside markup at most. -/
  | expression {e e' : Node} : e.outline = e'.outline → Alike (.expression e) (.expression e')
  /-- Markup under the same tag, or two fragments. -/
  | markup {n n' : Node} : markupSummary n = markupSummary n' → Alike (.markup n) (.markup n')

/-- A value is alike to itself. -/
theorem Alike.refl (v : GivenValue) : v.Alike v := by
  cases v with
  | standsAlone => exact .standsAlone
  | text s => exact .text s
  | expression e => exact .expression rfl
  | markup n => exact .markup rfl

/-- What says the same of an expression as of its outline, and of markup no more than its summary
does, says the same of values that are read alike. -/
theorem Alike.eq {β : Type} {f : GivenValue → β} {v v' : GivenValue} (h : v.Alike v')
    (hexpression : ∀ e, f (.expression e.outline) = f (.expression e))
    (hmarkup : ∀ n n', markupSummary n = markupSummary n' → f (.markup n) = f (.markup n')) :
    f v = f v' := by
  cases h with
  | standsAlone | text s => rfl
  | expression h => exact eq_of_outline (f := fun e => f (.expression e)) hexpression h
  | markup h => exact hmarkup _ _ h

/-- Expressions with the same outline give values that are read alike. -/
theorem ofExpr_alike {e e' : Node} (h : e.outline = e'.outline) : (ofExpr e).Alike (ofExpr e') := by
  have hunwrap : e.unwrap.outline = e'.unwrap.outline := by
    rw [← Node.unwrap_outline, h, Node.unwrap_outline]
  have hform : e.unwrap.form = e'.unwrap.form := by
    rw [← Node.form_outline, hunwrap, Node.form_outline]
  have hlength : e.unwrap.parts.length = e'.unwrap.parts.length := by
    rw [← Node.length_parts_outline, hunwrap, Node.length_parts_outline]
  unfold ofExpr
  generalize e.unwrap = u at *
  generalize e'.unwrap = u' at *
  obtain ⟨form, place, parts⟩ := u
  obtain ⟨form', place', parts'⟩ := u'
  obtain rfl : form = form' := hform
  -- Both have one form and as many parts, and nothing else decides which sort of value it is.
  cases form
  case string s => exact .text s
  case template quasis =>
    match parts, parts', hlength with
    | [], [], _ => exact .text _
    | _ :: _, _ :: _, _ => exact .expression hunwrap
  case markup =>
    match parts, parts', hlength with
    | [], [], _ => exact .expression hunwrap
    | [n], [n'], _ =>
      exact .markup (eq_of_outline (f := summary) summary_outline hunwrap)
    | _ :: _ :: _, _ :: _ :: _, _ => exact .expression hunwrap
  all_goals exact .expression hunwrap

/-- Whether an expression is a number, a truth value or null. -/
def isSimple (e : Node) : Bool :=
  match e.form, e.parts with
  | .number _, _ | .bool _, _ | .null, _ => true
  | .unary .minus, [n] => match n.form with
    | .number _ => true
    | _ => false
  | _, _ => false

/-- An expression is shown as code if it is simple. -/
theorem simpleCode?_expression (e : Node) :
    simpleCode? (.expression e) = if isSimple e then some (summary e) else none := by
  obtain ⟨form, place, parts⟩ := e
  -- Only a minus sign asks what stands behind it.
  cases form
  case unary op =>
    cases op
    case minus =>
      match parts with
      | [] => rfl
      | [⟨inner, _, _⟩] | ⟨inner, _, _⟩ :: _ :: _ => cases inner <;> rfl
    all_goals rfl
  all_goals rfl

/-- Whether it is simple shows in its outline. -/
theorem isSimple_outline (e : Node) : isSimple e.outline = isSimple e := by
  obtain ⟨form, place, parts⟩ := e
  cases form
  case unary op =>
    cases op
    case minus =>
      match parts with
      | [n] =>
        rw [Node.outline_mk (Or.inl (by decide)), Node.outlines, Node.outlines, isSimple, isSimple]
        dsimp only
        rw [Node.form_outline]
      | [] | _ :: _ :: _ => rfl
    all_goals rfl
  -- markup has an outline of its own, which is not simple either
  case markup =>
    obtain ⟨parts', h⟩ := Node.outline_markup place parts
    rw [h]
    rfl
  all_goals rfl

/-! ### Handlers -/

/-- The parameters of a handler and of its outline. -/
theorem parameterList_outline (list : Node) :
    parameterList list.outline.parts = parameterList list.parts := by
  have hname : list.outline.parts.map parameterName = list.parts.map parameterName := by
    refine Node.map_parts_outline (fun n => ?_) (fun m m' hform _ => ?_) list
    · rw [parameterName, parameterName, Node.form_outline]
    · rw [parameterName, parameterName, hform]
  rw [parameterList, parameterList, hname]

/-- The code for an arrow: its parameters, and its value unless it has a body. -/
theorem handlerCode_arrow (place : Place) (params result : Node) (rest : List Node) :
    handlerCode (.expression ⟨.arrow, place, params :: result :: rest⟩) =
      parameterList params.parts ++
        match result.form with
        | .body => " \x7b\x7d"
        | _ => " => " ++ summary result := by
  obtain ⟨form, p, parts⟩ := result
  cases params
  cases form <;> simp only [handlerCode, String.append_assoc]

/-- An arrow without a value is none that was read; its code is its summary. -/
theorem handlerCode_arrow_short {parts : List Node} (h : parts.length < 2) (place : Place) :
    handlerCode (.expression ⟨.arrow, place, parts⟩) = summary ⟨.arrow, place, parts⟩ := by
  match parts, h with
  | [], _ => rfl
  | [⟨_, _, _⟩], _ => rfl

/-- The parameters of a function among its parts. -/
def functionParams? : List Node → Option Node
  | [_, fn] => if fn.form = .fn then fn.parts.head? else none
  | _ => none

/-- The code for a function: its parameters and empty braces. -/
theorem handlerCode_function (place : Place) (parts : List Node) :
    handlerCode (.expression ⟨.functionExpr, place, parts⟩) =
      match functionParams? parts with
      | some params => parameterList params.parts ++ " \x7b\x7d"
      | none => summary ⟨.functionExpr, place, parts⟩ := by
  match parts with
  | [] | [_] => rfl
  | [_, ⟨inner, p, []⟩] | _ :: ⟨inner, p, []⟩ :: _ :: _ => cases inner <;> rfl
  | [_, ⟨inner, p, ⟨_, _, _⟩ :: _⟩] | _ :: ⟨inner, p, ⟨_, _, _⟩ :: _⟩ :: _ :: _ =>
    cases inner <;> rfl

/-- The parameters of a function are found in the outlines of its parts. -/
theorem functionParams?_outlines (parts : List Node) :
    functionParams? (Node.outlines parts) = (functionParams? parts).map Node.outline := by
  match parts with
  | [] | [_] | _ :: _ :: _ :: _ => rfl
  | [name, ⟨inner, p, ps⟩] =>
    rw [Node.outlines, Node.outlines, Node.outlines, functionParams?, functionParams?,
      Node.form_outline]
    split
    · next hfn =>
      dsimp only at hfn
      subst hfn
      rw [Node.outline_mk (Or.inl (by decide)), Node.outlines_eq_map, List.head?_map]
    · rfl

/-- The code for a handler is that of its outline. -/
theorem handlerCode_outline (e : Node) :
    handlerCode (.expression e.outline) = handlerCode (.expression e) := by
  have hsummary := summary_outline e
  obtain ⟨form, place, parts⟩ := e
  -- Anything but a function is a handler by its summary.
  cases form
  case arrow =>
    match parts with
    | [] => rfl
    | [params] =>
      rw [handlerCode_arrow_short (by simp)]
      exact (handlerCode_arrow_short (by simp) 0).trans hsummary
    | params :: result :: rest =>
      rw [Node.outline_mk (Or.inl (by decide)), Node.outlines, Node.outlines, handlerCode_arrow,
        handlerCode_arrow, Node.form_outline, parameterList_outline, summary_outline]
  case functionExpr =>
    rw [Node.outline_mk (Or.inl (by decide))] at hsummary ⊢
    rw [handlerCode_function, handlerCode_function, functionParams?_outlines]
    cases functionParams? parts with
    | none => exact hsummary
    | some params => exact congrArg (· ++ _) (parameterList_outline params)
  case markup =>
    obtain ⟨parts', h⟩ := Node.outline_markup place parts
    rw [h] at hsummary ⊢
    exact hsummary
  all_goals exact hsummary

section Alike

variable {v v' : GivenValue} (h : v.Alike v')
include h

/-- Values that are alike are described alike. -/
theorem Alike.describe_eq : v.describe = v'.describe :=
  h.eq summary_outline fun _ _ => id

/-- They have the same simple code, if any. -/
theorem Alike.simpleCode?_eq : v.simpleCode? = v'.simpleCode? :=
  h.eq (fun e => by simp only [simpleCode?_expression, isSimple_outline, summary_outline])
    fun _ _ _ => rfl

/-- They have the same code. -/
theorem Alike.code_eq : v.code = v'.code := by
  have hdescribe := h.describe_eq
  have hsimple := h.simpleCode?_eq
  cases h with
  | standsAlone | text s => rfl
  | expression h | markup h => rw [code, code, hdescribe, hsimple] <;> exact nofun

/-- They have the same class names. -/
theorem Alike.classTokens_eq : v.classTokens = v'.classTokens :=
  h.eq Expression.classTokens_outline fun _ _ _ => rfl

/-- They have the same code as handlers. -/
theorem Alike.handlerCode_eq : handlerCode v = handlerCode v' :=
  h.eq handlerCode_outline fun _ _ _ => rfl

/-- They become the same plain argument. -/
theorem Alike.plainArgument_eq (name : String) : plainArgument name v = plainArgument name v' := by
  refine h.eq (fun e => ?_) fun n n' hn => by rw [plainArgument, plainArgument, hn]
  rw [plainArgument, plainArgument, handlerCode_outline, summary_outline]

/-- They become the same key. -/
theorem Alike.keyArgument_eq : keyArgument v = keyArgument v' := by
  rw [keyArgument, keyArgument, h.code_eq]

/-- They leave the same comment if no rule takes them. -/
theorem Alike.unhandled_eq (key : String) : unhandled key v = unhandled key v' := by
  rw [unhandled, unhandled, h.describe_eq]

/-- They become the same hint. -/
theorem Alike.lowerHint_eq : lowerHint v = lowerHint v' := by
  rw [lowerHint, lowerHint, h.code_eq]

/-- They disable in the same way. -/
theorem Alike.lowerDisabled_eq : lowerDisabled v = lowerDisabled v' := by
  refine h.eq (fun e => ?_) fun _ _ _ => rfl
  have hsummary := summary_outline e
  obtain ⟨form, place, parts⟩ := e
  cases form
  case bool => rfl
  case markup =>
    obtain ⟨parts', hparts⟩ := Node.outline_markup place parts
    rw [hparts] at hsummary ⊢
    exact congrArg (fun s => Additions.code "enabled" ("!(" ++ s ++ ")")) hsummary
  all_goals exact congrArg (fun s => Additions.code "enabled" ("!(" ++ s ++ ")")) hsummary

/-- They become the same value of an input. -/
theorem Alike.lowerValue_eq (tag : String) : lowerValue tag v = lowerValue tag v' := by
  have hdescribe := h.describe_eq
  have hsimple := h.simpleCode?_eq
  have hcode := h.code_eq
  cases h with
  | standsAlone | text s => rfl
  | markup h => simp only [lowerValue, hcode]
  | expression h =>
    simp only [lowerValue, hsimple, hcode, hdescribe]
    -- Only a value that is no simple one is shown by its summary.
    cases simpleCode? (.expression _) with
    | some s => cases isTextInput tag <;> rfl
    | none => exact congrArg (fun s => Additions.comment "value" (s ++ _)) hdescribe

/-- They go by the same rule, or by none. -/
theorem Alike.attributeRule?_eq (row : ElementRow) (tag : String) (hasKey : Bool) (name : String) :
    attributeRule? row tag hasKey name v = attributeRule? row tag hasKey name v' := by
  have hhandler := h.handlerCode_eq
  have hvalue := h.lowerValue_eq tag
  have hdisabled := h.lowerDisabled_eq
  have hcode := h.code_eq
  have hdescribe := h.describe_eq
  have hhint := h.lowerHint_eq
  cases h with
  | standsAlone | text s => rfl
  | expression h | markup h =>
    simp only [attributeRule?, hhandler, hvalue, hdisabled, hcode, hdescribe, hhint]

end Alike

end GivenValue

/-! ### Attributes -/

/-- A spread leaves the remark of its outline. -/
theorem lowerSpread_outline (target : String) (e : Node) :
    lowerSpread target e.outline = lowerSpread target e := by
  rw [lowerSpread, lowerSpread, summary_outline]

/-- Class names are noted alike. -/
theorem lowerClass_alike {v v' : GivenValue} (h : v.Alike v') (mark : String) :
    lowerClass mark v = lowerClass mark v' := by
  rw [lowerClass, lowerClass, h.classTokens_eq, h.describe_eq]

/-- **Attributes that are read alike.** Where both values are markup it has to be lowered alike too,
for a component may be given it. -/
inductive GivenAttribute.Alike (overrides : Overrides) : GivenAttribute → GivenAttribute → Prop
  /-- Objects that differ inside markup at most. -/
  | spread {e e' : Node} : e.outline = e'.outline → Alike overrides (.spread e) (.spread e')
  /-- The same name, with values that are read alike. -/
  | named (name : String) {v v' : GivenValue} : v.Alike v' →
    (∀ n n', v = .markup n → v' = .markup n' → lowerNode overrides n = lowerNode overrides n') →
    Alike overrides (.named name v) (.named name v')

section Attributes

variable {overrides : Overrides} {attr attr' : Node} {g g' : GivenAttribute}
  (hattr : GivenAttribute.ofNode? attr = some g) (hattr' : GivenAttribute.ofNode? attr' = some g')
  (h : g.Alike overrides g')
include hattr hattr' h

/-- **Attributes with the same name and alike values** add the same to an element with a row. -/
theorem lowerAttribute_congr (row : ElementRow) (tag target : String) (hasKey : Bool) :
    lowerAttribute row tag target hasKey attr = lowerAttribute row tag target hasKey attr' := by
  rw [lowerAttribute_eq, lowerAttribute_eq, hattr, hattr']
  cases h with
  | spread h => exact eq_of_outline (lowerSpread_outline target) h
  | named name hvalue _ =>
    dsimp only
    rw [lowerClass_alike hvalue, hvalue.keyArgument_eq, hvalue.attributeRule?_eq,
      hvalue.unhandled_eq]
    rfl

/-- They add the same to an element inside a text. -/
theorem lowerNestedAttribute_congr (tag target : String) :
    lowerNestedAttribute tag target attr = lowerNestedAttribute tag target attr' := by
  rw [lowerNestedAttribute_eq, lowerNestedAttribute_eq, hattr, hattr']
  cases h with
  | spread h => exact eq_of_outline (lowerSpread_outline target) h
  | named name hvalue _ =>
    dsimp only
    rw [lowerClass_alike hvalue, hvalue.unhandled_eq]
    rfl

/-- They add the same to a component, provided that markup in them becomes the same widgets. -/
theorem lowerComponentAttribute_congr (target : String) :
    lowerComponentAttribute overrides target attr =
      lowerComponentAttribute overrides target attr' := by
  rw [lowerComponentAttribute_eq, lowerComponentAttribute_eq, hattr, hattr']
  cases h with
  | spread h => exact eq_of_outline (lowerSpread_outline target) h
  | named name hvalue hmarkup =>
    dsimp only
    rw [lowerClass_alike hvalue, hvalue.keyArgument_eq]
    have hplain := hvalue.plainArgument_eq name
    -- Markup is lowered; whatever else a component is given is read as a value.
    cases hvalue with
    | standsAlone | text s => rfl
    | expression =>
      dsimp only
      rw [hplain]
    | markup =>
      dsimp only
      rw [hmarkup _ _ rfl rfl]

end Attributes

end JsxWidgets
