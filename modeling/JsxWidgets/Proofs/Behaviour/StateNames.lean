import JsxWidgets.Proofs.Behaviour.HookCalls
import JsxWidgets.Proofs.Behaviour.StateEntries
import JsxWidgets.Proofs.Text.CamelCase

/-!
# Names of state

A state has two names, that of its variable and that of its setter, and one of them may be missing
where it is declared. Then it is made up from the other one. On the names that variables usually
have, both ways agree, so that it makes no difference which of the two is missing (`namesFound`).
In the same way the event of a handler is made up from the name of the attribute, and leads back to
it (`madeUpNames`).

What a declaration says is not lost on the way into the records. The walk for calls of hooks may
come to a declaration in many ways, through an argument of a call or the value of another variable.
Wherever it does, it notes the call with the pattern (`HookCall.findsVariable`).
-/

namespace JsxWidgets

open Syntax Expression

/-! ### Variables with the value of a call -/

/-- The nodes that are searched for calls of hooks. -/
def Syntax.Module.searched (m : Module) : List Node := HookCall.survey.seen.runAll .free m

namespace HookCall

/-- What is found in the parts of a node, as far as it is known of each part that is entered. -/
theorem mem_runParts_of_seen {n : Node} {c : HookCall} {position : Position} {whole : Node}
    {parts : List Node}
    (hparts : ∀ part ∈ parts, ∀ number inner, enter position whole number = some inner →
      n ∈ survey.seen.run inner part → c ∈ survey.run inner part) (number : Nat)
    (hn : n ∈ survey.seen.runParts position whole number parts) :
    c ∈ survey.runParts position whole number parts := by
  -- the position inside a part depends on its number, hence general in it
  induction parts generalizing number with
  | nil => cases hn
  | cons part parts ih =>
    have hfirst := hparts part List.mem_cons_self number
    have hrest := ih (fun p hp => hparts p (List.mem_cons_of_mem _ hp)) (number + 1)
    rw [Survey.runParts_cons, List.mem_append] at hn ⊢
    refine hn.imp (fun hn => ?_) hrest
    change n ∈ (enter position whole number).elim _ _ at hn
    change c ∈ (enter position whole number).elim _ _
    cases hinner : enter position whole number with
    | none =>
      rw [hinner] at hn
      cases hn
    | some inner =>
      rw [hinner] at hn
      exact hfirst inner hinner hn

/-- A variable with the value of a call of a hook is found wherever the walk comes to it. -/
def FindsVariable (n : Node) (c : HookCall) (position : Position) (within : Node) : Prop :=
  n ∈ survey.seen.run position within → c ∈ survey.run position within

section Step

variable {n : Node} {c : HookCall} (hc : ofDeclarator? n = some c) {within : Node}
  (hfree : ∀ part ∈ within.parts, FindsVariable n c .free part)
  (hway : ∀ part ∈ within.parts, (ofValue? part).isSome = true → FindsVariable n c .declared part)

include hc hfree hway

/-- The walk comes to the variable, or to a part that leads there. -/
theorem findsVariable_free : FindsVariable n c .free within := by
  intro hn
  rw [Survey.run_eq, List.mem_append] at hn ⊢
  rcases hn with hself | hparts
  · obtain rfl : n = within := List.mem_singleton.mp hself
    left
    obtain ⟨place, pattern, value, name, call, rfl, -, -⟩ := ofDeclarator?_eq_some_iff.mp hc
    change c ∈ (ofDeclarator? _).toList
    rw [hc]
    exact List.mem_singleton_self c
  · right
    cases hcall : ofDeclarator? within with
    | none =>
      refine mem_runParts_of_seen (fun part hpart number inner hinner => ?_) 0 hparts
      rw [enter_free_of_none hcall] at hinner
      cases hinner
      exact hfree part hpart
    | some found =>
      -- Behind another variable with the value of a call only its value is entered.
      obtain ⟨place, pattern, value, name, call, rfl, hvalue, -⟩ :=
        ofDeclarator?_eq_some_iff.mp hcall
      rw [runParts_variable rfl hcall] at hparts ⊢
      exact hway value (List.mem_cons_of_mem _ List.mem_cons_self)
        (Option.isSome_of_mem hvalue) hparts

/-- On the way to a call there is no variable, so it is further on or in an argument. -/
theorem findsVariable_declared (hvalue : (ofValue? within).isSome = true) :
    FindsVariable n c .declared within := by
  suffices hparts : n ∈ survey.seen.runParts .declared within 0 within.parts →
      c ∈ survey.runParts .declared within 0 within.parts by
    intro hn
    rw [Survey.run_eq, List.mem_append] at hn ⊢
    refine Or.inr (hparts (hn.resolve_left fun hself => ?_))
    -- What is on the way has the value of a call and is no variable.
    obtain rfl : n = within := List.mem_singleton.mp hself
    obtain ⟨_, _, _, _, _, rfl, -, -⟩ := ofDeclarator?_eq_some_iff.mp hc
    rw [ofValue?.eq_def] at hvalue
    cases hvalue
  obtain ⟨form, place, parts⟩ := within
  have hstep : ∀ e rest, form ≠ .call → parts = e :: rest → (ofValue? e).isSome = true →
      n ∈ survey.seen.runParts .declared ⟨form, place, parts⟩ 0 parts →
        c ∈ survey.runParts .declared ⟨form, place, parts⟩ 0 parts := by
    rintro e rest hform rfl he
    rw [runParts_declared rfl hform, runParts_declared rfl hform]
    exact hway e List.mem_cons_self he
  unfold ofValue? at hvalue
  split at hvalue
  case h_7 =>
    refine mem_runParts_of_seen (fun part hpart number inner hinner => ?_) 0
    -- Of the call only the arguments are entered.
    rw [enter, if_pos rfl] at hinner
    split at hinner
    · cases hinner
      exact hfree part hpart
    · cases hinner
  case h_8 => cases hvalue
  all_goals exact hstep _ _ (by decide) rfl hvalue

end Step

/-- **A variable with the value of a call of a hook is found** wherever the walk comes to it. -/
theorem findsVariable {n : Node} {c : HookCall} (hc : ofDeclarator? n = some c) (within : Node) :
    FindsVariable n c .free within
      ∧ ((ofValue? within).isSome = true → FindsVariable n c .declared within) := by
  induction within using Node.induction_below with
  | step within ih =>
    have hfree : ∀ part ∈ within.parts, FindsVariable n c .free part :=
      fun part hpart => (ih part (Node.mem_nodesOf_of_mem hpart)).1
    have hway : ∀ part ∈ within.parts, (ofValue? part).isSome = true →
        FindsVariable n c .declared part :=
      fun part hpart => (ih part (Node.mem_nodesOf_of_mem hpart)).2
    exact ⟨findsVariable_free hc hfree hway, findsVariable_declared hc hfree hway⟩

/-- The calls that are found are known by the variables that are searched. -/
theorem mem_ofModule_of_searched {m : Module} {n : Node} {c : HookCall} (hn : n ∈ m.searched)
    (hc : ofDeclarator? n = some c) : c ∈ ofModule m := by
  obtain ⟨item, hitem, hrun⟩ := List.mem_flatMap.mp hn
  exact List.mem_flatMap.mpr ⟨item, hitem, (findsVariable hc item).1 hrun⟩

end HookCall

/-! ### Declarations of state -/

namespace Hook

/-- The record of the state that a call of `useState` makes, with two names. -/
def stateRecord (name setter : String) (call : Node) : Hook Place :=
  .state ⟨name, setter, (argument? call 0).map snapshot, Expression.inferredType (argument? call 0),
    call.place⟩

/-- **A declaration of state**, `const [name, setter] = useState(value)`: a pattern with some parts,
and the value of a call of `useState`. -/
def DeclaresState (items : List Node) (call n : Node) : Prop :=
  ∃ place patternPlace row annotation value,
    n = ⟨.declarator, place, [⟨.arrayPat, patternPlace, ⟨.list, row, items⟩ :: annotation⟩, value]⟩
      ∧ HookCall.ofValue? value = some ("useState", call)

/-- **The parts of a pattern give two names to a state.** -/
structure GivesNames (items : List Node) (name setter : String) : Prop where
  /-- They are the names that a pattern with these parts stands for. -/
  names : ∀ place row annotation,
    stateNames (some ⟨.arrayPat, place, ⟨.list, row, items⟩ :: annotation⟩) = (name, setter)
  /-- Wherever the analysis comes to a declaration with these parts, it records a state with these
  names. -/
  recorded : ∀ (m : Module) (n call : Node), n ∈ m.searched → DeclaresState items call n →
    stateRecord name setter call ∈ (analyzeHooks m).1

theorem givesNames_of_stateNames {items : List Node} {name setter : String}
    (h : ∀ place row annotation,
      stateNames (some ⟨.arrayPat, place, ⟨.list, row, items⟩ :: annotation⟩) = (name, setter)) :
    GivesNames items name setter := by
  refine ⟨h, ?_⟩
  rintro m n call hn ⟨place, patternPlace, row, annotation, value, rfl, hvalue⟩
  have hfound : _ ∈ HookCall.ofModule m := HookCall.mem_ofModule_of_searched hn
    (HookCall.ofDeclarator?_eq_some_iff.mpr ⟨_, _, _, _, _, rfl, hvalue, rfl⟩)
  have hcall : _ ∈ m.stateCalls := List.mem_filter.mpr ⟨hfound, decide_eq_true rfl⟩
  have hstate : _ ∈ m.stateCalls.map stateHook := List.mem_map_of_mem hcall
  -- the call is recorded as a state hook, and the names given to it are those of the pattern
  rw [← filterMap_state?_analyzeHooks, List.mem_filterMap, stateHook, h] at hstate
  obtain ⟨record, hrecord, heq⟩ := hstate
  cases record with
  | state found =>
    cases heq
    exact hrecord
  | _ => cases heq

/-- A setter that is made up from a variable leads back to it. -/
theorem variableOf_setterOf {name : String} (h : Naming.IsVariable name) :
    variableOf (Naming.setterOf name) = name := by
  have hdrop : Text.dropStart? "set" (Naming.setterOf name) = some (Text.capitalize name) :=
    Text.dropStart?_eq_some_iff.mpr rfl
  obtain ⟨⟨c, rest, hcapital, -, -⟩, hback⟩ := h.capitalize
  have hne : (Text.capitalize name).isEmpty = false := by
    rw [hcapital, ← Bool.not_eq_true, String.isEmpty_iff, String.ofList_eq_empty_iff]
    exact List.cons_ne_nil c rest
  rw [variableOf, hdrop, Option.getD_some, hne, if_neg Bool.false_ne_true, hback]

end Hook

/-! ### All names together -/

open Hook

/-- **The two names of a state are found**, whichever of them the declaration leaves out. -/
structure NamesFound (name : String) : Prop where
  /-- The setter that is made up is recognised as one. -/
  isSetter : Naming.isSetter (Naming.setterOf name) = true
  /-- From the variable alone, as in `const [name] = useState(value)`. -/
  ofVariable : ∀ place parts,
    GivesNames [⟨.bind name, place, parts⟩] name (Naming.setterOf name)
  /-- From the setter alone, as in `const [, setName] = useState(value)`. -/
  ofSetter : ∀ place parts,
    GivesNames [.absent, ⟨.bind (Naming.setterOf name), place, parts⟩] name (Naming.setterOf name)
  /-- From both. -/
  ofBoth : ∀ place parts place' parts',
    GivesNames [⟨.bind name, place, parts⟩, ⟨.bind (Naming.setterOf name), place', parts'⟩] name
      (Naming.setterOf name)

theorem namesFound {name : String} (h : Naming.IsVariable name) : NamesFound name where
  isSetter := Naming.isSetter_setterOf h
  ofVariable _ _ := givesNames_of_stateNames fun _ _ _ => rfl
  ofSetter _ _ := givesNames_of_stateNames fun _ _ _ =>
    congrArg (·, Naming.setterOf name) (variableOf_setterOf h)
  ofBoth _ _ _ _ := givesNames_of_stateNames fun _ _ _ => rfl

/-- **Names that are made up lead back** to the names that they are made from. -/
theorem madeUpNames :
    (∀ name, Naming.IsVariable name → NamesFound name)
      ∧ (∀ handler, Naming.isEventHandler handler = true →
        "on" ++ Text.capitalize (Naming.eventOf handler) = handler)
      ∧ ∀ handler handler', Naming.isEventHandler handler = true →
        Naming.isEventHandler handler' = true → handler ≠ handler' →
          Naming.eventOf handler ≠ Naming.eventOf handler' :=
  ⟨fun _ => namesFound, fun _ => Naming.on_append_eventOf,
    fun _ _ h h' => mt (Naming.eventOf_inj h h')⟩

/-- The call in `const [, setCount] = useState()`. -/
def loneCall : Node := ⟨.call, 0, [.leaf (.name "useState") 0, .list [], .list []]⟩

/-- The declaration `[, setCount] = useState()`. -/
def loneSetter : Node :=
  ⟨.declarator, 0, [⟨.arrayPat, 0, [.list [.absent, ⟨.bind "setCount", 0, [.absent]⟩], .absent]⟩,
    loneCall]⟩

/-- A setter without its variable, and two handlers that differ in one letter. -/
theorem madeUpNames_count :
    Naming.IsVariable "count" ∧ Naming.setterOf "count" = "setCount"
      ∧ stateRecord "count" "setCount" loneCall
        ∈ (analyzeHooks [⟨.declStmt, 0, [⟨.varDecl .const, 0, [loneSetter]⟩]⟩]).1
      ∧ "on" ++ Text.capitalize (Naming.eventOf "onMouseEnter") = "onMouseEnter"
      ∧ Naming.eventOf "onMouseEnter" ≠ Naming.eventOf "onMouseenter" := by
  have hrest : ∀ c ∈ ['o', 'u', 'n', 't'], Naming.isWordChar c = true :=
    List.all_eq_true.mp (by decide)
  have hname : Naming.IsVariable "count" := ⟨'c', _, rfl, by decide, hrest⟩
  have hsetter : Naming.setterOf "count" = "setCount" := by decide +kernel
  have hfound := (madeUpNames.1 "count" hname).ofSetter 0 [.absent]
  rw [hsetter] at hfound
  refine ⟨hname, hsetter, hfound.recorded _ loneSetter loneCall ?_ ⟨_, _, _, _, _, rfl, rfl⟩,
    madeUpNames.2.1 "onMouseEnter" (by decide), ?_⟩
  · exact List.mem_of_getElem? (i := 2) rfl
  · exact madeUpNames.2.2 "onMouseEnter" "onMouseenter" (by decide) (by decide) (by decide)

end JsxWidgets
