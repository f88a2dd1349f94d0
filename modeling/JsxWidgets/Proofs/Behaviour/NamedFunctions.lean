import Mathlib.Logic.Relation
import JsxWidgets.Proofs.Behaviour.EventHandlers
import JsxWidgets.Proofs.Places.Functions

/-!
# Named functions of a module

The index of the functions of a module is said here without the walk that makes it. A node may
declare a function under a name (`Declares`): a declared function, a method or a field of a class,
or a variable. And it may open onto other nodes that are looked at in turn (`Opens`): a declaration
onto its parts, a block onto its statements, a function onto those of its body, the value of a
variable onto the functions that are written in it. `mem_ofNode_step` says that the walk takes one
such step at each node, and `mem_ofNode_iff` that it takes as many as there are.

Two modules in a row have the functions of the first one, and of the second one those with further
names (`get?_ofModule_append`), so that handlers that are known stay what they are.

Both relations depend on how the keys of the members of classes are read. The index reads plain
words only (`plainKeys`). A text or a number in the place of a key names a member as well, and a
method has statements whatever its key is (`allKeys`). `FunctionIndex.laws` says when that makes no
difference.
-/

namespace JsxWidgets

open Syntax Syntax.Node Expression

/-! ### Functions that are values -/

namespace FunctionBody

/-- **The body of an expression that is a function**, parentheses and types aside. -/
inductive IsBodyOf : FunctionBody → Node → Prop where
  /-- In parentheses, or in front of a type. -/
  | wrapped {body : FunctionBody} {n e : Node} (hinside : n.inside? = some e)
      (h : IsBodyOf body e) : IsBodyOf body n
  /-- An arrow function with statements. -/
  | arrow (place p : Place) (params : Node) (statements rest : List Node) :
      IsBodyOf (.block statements) ⟨.arrow, place, params :: ⟨.body, p, statements⟩ :: rest⟩
  /-- An arrow function that gives a value. -/
  | value (place : Place) (params : Node) {result : Node} (hresult : result.form ≠ .body)
      (rest : List Node) : IsBodyOf (.value result) ⟨.arrow, place, params :: result :: rest⟩
  /-- A function with a body. -/
  | function {body : FunctionBody} {fn : Node} (h : ofFunction? fn = some body) (place : Place)
      (name : Node) : IsBodyOf body ⟨.functionExpr, place, [name, fn]⟩

/-- **The body of the function that a variable holds**: its value is the function, or a call of
`useCallback` that is handed the function first. -/
inductive IsHeldAs (body : FunctionBody) (value : Node) : Prop where
  /-- The value is the function. -/
  | bare (h : body.IsBodyOf value)
  /-- The value is a call that is handed the function. -/
  | callback {handed : Node} (hcall : value.unwrap.form = .call)
      (hname : calleeName? value.unwrap = some "useCallback")
      (hhanded : argument? value.unwrap 0 = some handed) (h : body.IsBodyOf handed)

theorem seesThrough_ofExpr? : SeesThrough ofExpr? := fun n e h => by
  rw [ofExpr?, ofExpr?, seesThrough_unwrap n e h]

theorem ofExpr?_of_isBodyOf {body : FunctionBody} {e : Node} (h : body.IsBodyOf e) :
    ofExpr? e = some body := by
  induction h with
  | wrapped hinside _ ih => rw [seesThrough_ofExpr? _ _ hinside, ih]
  | arrow => rfl
  | @value place params result hresult rest =>
    obtain ⟨form, p, parts⟩ := result
    cases form
    case body => exact absurd rfl hresult
    all_goals rfl
  | function h => exact h

theorem isBodyOf_of_ofExpr? {body : FunctionBody} {e : Node} (h : ofExpr? e = some body) :
    body.IsBodyOf e := by
  induction e using induction_below with
  | step e ih =>
    -- the wrappers are taken off one at a time; what is below them decides
    cases hinside : e.inside? with
    | some inner =>
      rw [seesThrough_ofExpr? e inner hinside] at h
      exact .wrapped hinside (ih inner (mem_nodesOf_of_mem (inside?_mem hinside)) h)
    | none =>
      rw [ofExpr?, unwrap_of_inside? hinside] at h
      split at h
      next =>
        cases h
        exact .arrow _ _ _ _ _
      next place params result rest hbody =>
        cases h
        obtain ⟨form, p, parts⟩ := result
        -- the first case of the match took the arrows with a block
        have hresult : form ≠ .body := by
          rintro rfl
          exact hbody p parts rfl
        exact .value place params hresult rest
      next => exact .function h _ _
      next => cases h

/-- A function that is a value has a body in the sense of the index. -/
theorem ofExpr?_eq_some_iff {body : FunctionBody} {e : Node} :
    ofExpr? e = some body ↔ body.IsBodyOf e := ⟨isBodyOf_of_ofExpr?, ofExpr?_of_isBodyOf⟩

/-- So does a variable that holds a function. -/
theorem ofInitializer?_eq_some_iff {body : FunctionBody} {value : Node} :
    ofInitializer? value = some body ↔ body.IsHeldAs value := by
  unfold ofInitializer?
  constructor
  · intro h
    split at h
    next hcall =>
      obtain ⟨hname, h⟩ := Option.ite_none_right_eq_some.mp h
      obtain ⟨handed, hhanded, hbody⟩ := Option.bind_eq_some_iff.mp h
      exact .callback hcall hname hhanded (ofExpr?_eq_some_iff.mp hbody)
    next => exact .bare (ofExpr?_eq_some_iff.mp h)
  · rintro (h | ⟨hcall, hname, hhanded, h⟩)
    · have hbody := ofExpr?_eq_some_iff.mpr h
      split
      next hcall =>
        -- No call is a function.
        rcases Handler.form_of_ofExpr? hbody with hform | hform <;> rw [hform] at hcall <;>
          cases hcall
      next => exact hbody
    · rw [hcall]
      exact (if_pos hname).trans (by rw [hhanded]; exact ofExpr?_eq_some_iff.mpr h)

end FunctionBody

namespace FunctionIndex

open FunctionBody (statementsOf ofFunction?)

/-! ### Declarations and the way to them -/

/-- **How the keys of the members of classes are read.** -/
structure KeyReading where
  /-- The name of a member, if its key says one. -/
  name? : Node → Option String
  /-- Whether the statements of a method are looked at. -/
  opens : Node → Prop

/-- Words are read only, and methods with other keys are passed over. -/
def plainKeys : KeyReading := ⟨wordKey?, fun key => ∃ t, key.form = .word t⟩

/-- Words, texts and numbers are read, and no method is passed over. -/
def allKeys : KeyReading := ⟨keyName?, fun _ => True⟩

/-- **What a node declares**: a function with a body, and the name for it. -/
inductive Declares (keys : KeyReading) (t : String) (body : FunctionBody) : Node → Prop where
  /-- A declared function. -/
  | function {form : Form} (hform : form = .fnDecl ∨ form = .exportFn) {name fn : Node}
      (hname : binderName? name = some t) (hbody : ofFunction? fn = some body) (place : Place) :
      Declares keys t body ⟨form, place, [name, fn]⟩
  /-- A method of a class. -/
  | method {key fn : Node} (hname : keys.name? key = some t) (hbody : ofFunction? fn = some body)
      (place : Place) : Declares keys t body ⟨.method, place, [key, fn]⟩
  /-- A field of a class whose value is a function. -/
  | field {key value : Node} (hname : keys.name? key = some t) (hbody : body.IsBodyOf value)
      (place : Place) (type : Node) : Declares keys t body ⟨.field, place, [key, value, type]⟩
  /-- A variable that holds a function. -/
  | held {value : Node} (hbody : body.IsHeldAs value) (place p : Place) (types : List Node) :
      Declares keys t body ⟨.declarator, place, [⟨.bind t, p, types⟩, value]⟩

/-- **Where a node leads on to.** -/
inductive Opens (keys : KeyReading) : Node → Node → Prop where
  /-- A declaration among statements, or an exported one. -/
  | declaration {form : Form} (hform : form = .declStmt ∨ form = .exportDecl) (place : Place)
      (d : Node) : Opens keys ⟨form, place, [d]⟩ d
  /-- A statement of a block. -/
  | block {statements : List Node} {s : Node} (h : s ∈ statements) (place : Place) :
      Opens keys ⟨.block, place, statements⟩ s
  /-- A statement of a declared function. -/
  | function {form : Form} (hform : form = .fnDecl ∨ form = .exportFn) {fn s : Node}
      (h : s ∈ statementsOf fn) (place : Place) (name : Node) :
      Opens keys ⟨form, place, [name, fn]⟩ s
  /-- A declared class. -/
  | cls {form : Form} (hform : form = .classDecl ∨ form = .exportClass) (place : Place)
      (name cls : Node) : Opens keys ⟨form, place, [name, cls]⟩ cls
  /-- A member of a class. -/
  | member {members m : Node} (h : m ∈ members.parts) (place : Place) (rest : List Node) :
      Opens keys ⟨.cls, place, members :: rest⟩ m
  /-- A statement of a method. -/
  | method {key fn s : Node} (hkey : keys.opens key) (h : s ∈ statementsOf fn) (place : Place) :
      Opens keys ⟨.method, place, [key, fn]⟩ s
  /-- One of several variables. -/
  | declarator {ds : List Node} {d : Node} (h : d ∈ ds) (kind : VariableKind) (place : Place) :
      Opens keys ⟨.varDecl kind, place, ds⟩ d
  /-- The value of a variable. -/
  | value (place : Place) (pattern value : Node) :
      Opens keys ⟨.declarator, place, [pattern, value]⟩ value
  /-- A value that is exported as the default. -/
  | exported (place : Place) (e : Node) : Opens keys ⟨.exportExpr, place, [e]⟩ e
  /-- An expression in parentheses, or in front of a type. -/
  | wrapped {n e : Node} (hinside : n.inside? = some e) : Opens keys n e
  /-- A statement of an arrow function. -/
  | arrow {statements : List Node} {s : Node} (h : s ∈ statements) (place p : Place)
      (params : Node) (rest : List Node) :
      Opens keys ⟨.arrow, place, params :: ⟨.body, p, statements⟩ :: rest⟩ s
  /-- A statement of a function that is a value. -/
  | functionExpr {fn s : Node} (h : s ∈ statementsOf fn) (place : Place) (name : Node) :
      Opens keys ⟨.functionExpr, place, [name, fn]⟩ s
  /-- An argument of a call. -/
  | argument {args a : Node} (h : a ∈ args.parts) (place : Place) (callee types : Node) :
      Opens keys ⟨.call, place, [callee, args, types]⟩ a
  /-- The expression that an argument is. -/
  | item {form : Form} (hform : form = .item ∨ form = .spread) (place : Place) (e : Node) :
      Opens keys ⟨form, place, [e]⟩ e

/-- **The names of a module**: those under which something is declared that its items lead to. -/
def Knows (keys : KeyReading) (m : Module) (name : String) : Prop :=
  ∃ item ∈ m, ∃ n body,
    Relation.ReflTransGen (Opens keys) item n ∧ Declares keys name body n

/-! ### One step of the walk -/

theorem mem_entry_iff {name : Option String} {body : Option FunctionBody} {t : String}
    {b : FunctionBody} : (t, b) ∈ entry name body ↔ name = some t ∧ body = some b := by
  cases name <;> cases body <;> simp [entry, eq_comm]

theorem mem_ofNodes_iff {ns : List Node} {named : String × FunctionBody} :
    named ∈ ofNodes ns ↔ ∃ n ∈ ns, named ∈ ofNode n := by
  induction ns with
  | nil => simp [ofNodes]
  | cons n ns ih => simp [ofNodes, ih]

theorem wordKey?_eq_some_iff {key : Node} {t : String} :
    wordKey? key = some t ↔ key.form = .word t := by
  unfold wordKey?
  split
  next heq => simp [heq]
  next hword => exact ⟨nofun, fun h => absurd h (hword t)⟩

section Step

variable {n : Node} {t : String} {body : FunctionBody}

theorem mem_ofNode_of_declares (h : Declares plainKeys t body n) : (t, body) ∈ ofNode n := by
  cases h with
  | function hform hname hbody =>
    rw [ofNode_declared hform, hname, hbody]
    exact List.mem_append_left _ (mem_entry_iff.mpr ⟨rfl, rfl⟩)
  | @method key fn hname hbody =>
    have hword : wordKey? key = some t := hname
    rw [ofNode_method, hword, hbody]
    exact List.mem_append_left _ (mem_entry_iff.mpr ⟨rfl, rfl⟩)
  | @field key value hname hbody =>
    change (t, body) ∈ entry (wordKey? key) (FunctionBody.ofExpr? value)
    exact mem_entry_iff.mpr ⟨hname, FunctionBody.ofExpr?_eq_some_iff.mpr hbody⟩
  | @held value hbody place p types =>
    change (t, body) ∈ entry (some t) (FunctionBody.ofInitializer? value) ++ ofNode value
    refine List.mem_append_left _ (mem_entry_iff.mpr ⟨rfl, ?_⟩)
    exact FunctionBody.ofInitializer?_eq_some_iff.mpr hbody

theorem ofNode_of_inside? {e : Node} (h : n.inside? = some e) : ofNode n = ofNode e := by
  unfold inside? at h
  split at h <;> cases h <;> simp only [ofNode]

theorem mem_ofNode_of_opens {d : Node} (h : Opens plainKeys n d) (hd : (t, body) ∈ ofNode d) :
    (t, body) ∈ ofNode n := by
  have hamong {ns : List Node} (hmem : d ∈ ns) : (t, body) ∈ ofNodes ns :=
    mem_ofNodes_iff.mpr ⟨d, hmem, hd⟩
  -- one case for each way a node opens another; most only pass a list on
  cases h with
  | declaration hform | item hform => rcases hform with rfl | rfl <;> exact hd
  | exported => exact hd
  | cls hform => rcases hform with rfl | rfl <;> exact hd
  | block hmem | declarator hmem | arrow hmem => exact hamong hmem
  | @member members _ hmem =>
    obtain ⟨_, _, _⟩ := members
    exact hamong hmem
  | @argument args _ hmem =>
    obtain ⟨_, _, _⟩ := args
    exact hamong hmem
  -- a declared function enters its own name before what its body declares
  | function hform hmem =>
    rw [ofNode_declared hform]
    exact List.mem_append_right _ (hamong hmem)
  | @method key fn _ hkey hmem =>
    obtain ⟨w, hword⟩ := hkey
    rw [ofNode_method, wordKey?_eq_some_iff.mpr hword]
    exact List.mem_append_right _ (hamong hmem)
  | functionExpr hmem =>
    rw [ofNode_functionExpr]
    exact hamong hmem
  | value place pattern => exact List.mem_append_right (entry _ _) hd
  | wrapped hinside => rwa [ofNode_of_inside? hinside]

/-- What a node names it declares, or something does that it leads on to. -/
theorem declares_or_opens_of_mem (h : (t, body) ∈ ofNode n) :
    Declares plainKeys t body n ∨ ∃ d, Opens plainKeys n d ∧ (t, body) ∈ ofNode d := by
  -- The index looks at the form of a node, and then at whether it has the parts of one that was
  -- read. It has entries of its own for functions and for values that hold them; otherwise it goes
  -- on inside.
  obtain ⟨form, place, parts⟩ := n
  cases form
  case declStmt | exportDecl =>
    match parts with
    | [d] => exact Or.inr ⟨d, .declaration (by decide) place d, h⟩
    | [] | _ :: _ :: _ => cases h
  case exportExpr =>
    match parts with
    | [e] => exact Or.inr ⟨e, .exported place e, h⟩
    | [] | _ :: _ :: _ => cases h
  case item | spread =>
    match parts with
    | [e] => exact Or.inr ⟨e, .item (by decide) place e, h⟩
    | [] | _ :: _ :: _ => cases h
  case paren | asConst | nonNull =>
    match parts with
    | [e] => exact Or.inr ⟨e, .wrapped rfl, h⟩
    | [] | _ :: _ :: _ => cases h
  case asType | satisfies =>
    match parts with
    | [e, type] => exact Or.inr ⟨e, .wrapped rfl, h⟩
    | [] | [_] | _ :: _ :: _ :: _ => cases h
  case classDecl | exportClass =>
    match parts with
    | [name, cls] => exact Or.inr ⟨cls, .cls (by decide) place name cls, h⟩
    | [] | [_] | _ :: _ :: _ :: _ => cases h
  case block =>
    obtain ⟨s, hs, hmem⟩ := mem_ofNodes_iff.mp h
    exact Or.inr ⟨s, .block hs place, hmem⟩
  case varDecl kind =>
    obtain ⟨v, hv, hmem⟩ := mem_ofNodes_iff.mp h
    exact Or.inr ⟨v, .declarator hv kind place, hmem⟩
  -- The entry under its name, or one for a statement of its body.
  case fnDecl | exportFn =>
    match parts with
    | [name, fn] =>
      rw [ofNode_declared (by decide)] at h
      rcases List.mem_append.mp h with hentry | hstatements
      · obtain ⟨hname, hbody⟩ := mem_entry_iff.mp hentry
        exact Or.inl (.function (by decide) hname hbody place)
      · obtain ⟨s, hs, hmem⟩ := mem_ofNodes_iff.mp hstatements
        exact Or.inr ⟨s, .function (by decide) hs place name, hmem⟩
    | [] | [_] | _ :: _ :: _ :: _ =>
      rw [ofNode_eq_nil (by decide) (by simp)] at h
      cases h
  -- A method has entries only if its key is a word.
  case method =>
    match parts with
    | [key, fn] =>
      rw [ofNode_method] at h
      cases hword : wordKey? key with
      | none => rw [hword] at h; cases h
      | some w =>
        rw [hword] at h
        rcases List.mem_append.mp h with hentry | hstatements
        · obtain ⟨hname, hbody⟩ := mem_entry_iff.mp hentry
          exact Or.inl (.method (hword.trans hname) hbody place)
        · obtain ⟨s, hs, hmem⟩ := mem_ofNodes_iff.mp hstatements
          have hopens : plainKeys.opens key := ⟨w, wordKey?_eq_some_iff.mp hword⟩
          exact Or.inr ⟨s, .method hopens hs place, hmem⟩
    | [] | [_] | _ :: _ :: _ :: _ =>
      rw [ofNode_eq_nil (by decide) (by simp)] at h
      cases h
  case functionExpr =>
    match parts with
    | [name, fn] =>
      rw [ofNode_functionExpr] at h
      obtain ⟨s, hs, hmem⟩ := mem_ofNodes_iff.mp h
      exact Or.inr ⟨s, .functionExpr hs place name, hmem⟩
    | [] | [_] | _ :: _ :: _ :: _ =>
      rw [ofNode_eq_nil (by decide) (by simp)] at h
      cases h
  case cls =>
    match parts with
    | [] => cases h
    | ⟨_, _, members⟩ :: rest =>
      obtain ⟨m, hm, hmem⟩ := mem_ofNodes_iff.mp h
      exact Or.inr ⟨m, .member hm place rest, hmem⟩
  case field =>
    match parts with
    | [key, value, type] =>
      obtain ⟨hname, hbody⟩ := mem_entry_iff.mp h
      exact Or.inl (.field hname (FunctionBody.ofExpr?_eq_some_iff.mp hbody) place type)
    | [] | [_] | [_, _] | _ :: _ :: _ :: _ :: _ => cases h
  -- A variable that holds a function, or one for something inside its value.
  case declarator =>
    match parts with
    | [pattern, value] =>
      rcases List.mem_append.mp h with hentry | hvalue
      · obtain ⟨hname, hbody⟩ := mem_entry_iff.mp hentry
        have hheld := FunctionBody.ofInitializer?_eq_some_iff.mp hbody
        obtain ⟨form, p, types⟩ := pattern
        cases form
        case bind w =>
          cases hname
          exact Or.inl (.held hheld place p types)
        all_goals cases hname
      · exact Or.inr ⟨value, .value place pattern value, hvalue⟩
    | [] | [_] | _ :: _ :: _ :: _ => cases h
  -- Only a body in braces has statements.
  case arrow =>
    match parts with
    | [] | [_] => cases h
    | params :: ⟨code, p, statements⟩ :: rest =>
      cases code
      case body =>
        obtain ⟨s, hs, hmem⟩ := mem_ofNodes_iff.mp h
        exact Or.inr ⟨s, .arrow hs place p params rest, hmem⟩
      all_goals cases h
  case call =>
    match parts with
    | [callee, ⟨_, _, args⟩, types] =>
      obtain ⟨a, ha, hmem⟩ := mem_ofNodes_iff.mp h
      exact Or.inr ⟨a, .argument ha place callee types, hmem⟩
    | [] | [_] | [_, ⟨_, _, _⟩] | _ :: ⟨_, _, _⟩ :: _ :: _ :: _ => cases h
  all_goals cases h

end Step

/-! ### All steps of the walk -/

section Steps

variable {keys : KeyReading} {n d : Node} {t : String} {body : FunctionBody}

/-- What a node leads on to lies below it. -/
theorem Opens.mem_nodesOf (h : Opens keys n d) : d ∈ nodesOf n.parts := by
  have hstatement {fn : Node} {parts : List Node} (hfn : fn ∈ parts) (hd : d ∈ statementsOf fn) :
      d ∈ nodesOf parts := mem_nodesOf_of_mem_nodes (mem_nodesOf_of_mem hfn)
    (mem_nodes_of_below (FunctionBody.mem_nodesOf_of_mem_statementsOf hd))
  have hpart (list : Node) {parts : List Node} (hlist : list ∈ parts) (hd : d ∈ list.parts) :
      d ∈ nodesOf parts :=
    mem_nodesOf_of_mem_nodes (mem_nodesOf_of_mem hlist) (mem_nodes_of_below (mem_nodesOf_of_mem hd))
  cases h with
  | declaration | exported | item | cls | value => exact mem_nodesOf_of_mem (by simp)
  | block hd | declarator hd => exact mem_nodesOf_of_mem hd
  | function _ hd | method _ hd | functionExpr hd => exact hstatement (by simp) hd
  | member hd | argument hd => exact hpart _ (by simp) hd
  | @arrow statements _ hd place p => exact hpart ⟨.body, p, statements⟩ (by simp) hd
  | wrapped hinside => exact mem_nodesOf_of_mem (inside?_mem hinside)

/-- **What the walk finds** at a node is what is declared somewhere that the node leads to. -/
theorem mem_ofNode_iff :
    (t, body) ∈ ofNode n ↔
      ∃ d, Relation.ReflTransGen (Opens plainKeys) n d ∧ Declares plainKeys t body d := by
  constructor
  · intro h
    induction n using induction_below with
    | step n ih =>
      rcases declares_or_opens_of_mem h with hdeclares | ⟨next, hopens, hnext⟩
      · exact ⟨n, .refl, hdeclares⟩
      · obtain ⟨d, hsteps, hdeclares⟩ := ih next hopens.mem_nodesOf hnext
        exact ⟨d, .head hopens hsteps, hdeclares⟩
  · rintro ⟨d, hsteps, hdeclares⟩
    induction hsteps using Relation.ReflTransGen.head_induction_on with
    | refl => exact mem_ofNode_of_declares hdeclares
    | head hopens _ ih => exact mem_ofNode_of_opens hopens ih

end Steps

/-! ### Names -/

theorem contains_iff {index : FunctionIndex} {name : String} :
    index.contains name = true ↔ ∃ body, (name, body) ∈ index := by
  rw [contains, get?, Option.isSome_map, List.find?_isSome]
  constructor
  · rintro ⟨⟨t, body⟩, hmem, hname⟩
    obtain rfl : t = name := of_decide_eq_true hname
    exact ⟨body, hmem⟩
  · rintro ⟨body, hmem⟩
    exact ⟨_, hmem, decide_eq_true rfl⟩

/-- **The names of the index** are those under which something is declared that the items of the
module lead to. -/
theorem contains_ofModule_iff {m : Module} {name : String} :
    (ofModule m).contains name = true ↔ Knows plainKeys m name := by
  rw [contains_iff, Knows]
  simp only [ofModule, mem_ofNodes_iff, mem_ofNode_iff]
  constructor
  · rintro ⟨body, item, hitem, n, hsteps, hdeclares⟩
    exact ⟨item, hitem, n, body, hsteps, hdeclares⟩
  · rintro ⟨item, hitem, n, body, hsteps, hdeclares⟩
    exact ⟨body, item, hitem, n, hsteps, hdeclares⟩

theorem keyName?_of_wordKey? {key : Node} {t : String} (h : wordKey? key = some t) :
    keyName? key = some t := by
  rw [keyName?, wordKey?_eq_some_iff.mp h]

/-- Whatever is found where words are read only is found where all keys are. -/
theorem Knows.of_plainKeys {m : Module} {name : String} (h : Knows plainKeys m name) :
    Knows allKeys m name := by
  obtain ⟨item, hitem, n, body, hsteps, hdeclares⟩ := h
  refine ⟨item, hitem, n, body, Relation.ReflTransGen.mono (fun a b hopens => ?_) _ _ hsteps, ?_⟩
  · cases hopens with
    | declaration hform => exact .declaration hform _ _
    | block h => exact .block h _
    | function hform h => exact .function hform h _ _
    | cls hform => exact .cls hform _ _ _
    | member h => exact .member h _ _
    | method _ h => exact .method trivial h _
    | declarator h => exact .declarator h _ _
    | value => exact .value _ _ _
    | exported => exact .exported _ _
    | wrapped hinside => exact .wrapped hinside
    | arrow h => exact .arrow h _ _ _ _
    | functionExpr h => exact .functionExpr h _ _
    | argument h => exact .argument h _ _ _
    | item hform => exact .item hform _ _
  · cases hdeclares with
    | function hform hname hbody => exact .function hform hname hbody _
    | method hname hbody => exact .method (keyName?_of_wordKey? hname) hbody _
    | field hname hbody => exact .field (keyName?_of_wordKey? hname) hbody _ _
    | held hbody => exact .held hbody _ _ _

/-! ### Modules in a row -/

theorem ofNodes_append (ms ns : List Node) : ofNodes (ms ++ ns) = ofNodes ms ++ ofNodes ns := by
  induction ms with
  | nil => rfl
  | cons m ms ih => rw [List.cons_append, ofNodes, ofNodes, ih, List.append_assoc]

/-- **The first declaration wins**: a name that the first of two modules knows is what it is there,
and any other name is what it is in the second one. -/
theorem get?_ofModule_append (a b : Module) (name : String) :
    (ofModule (a ++ b)).get? name = ((ofModule a).get? name).or ((ofModule b).get? name) := by
  rw [ofModule, ofNodes_append, get?, List.find?_append, Option.map_or]
  rfl

end FunctionIndex

open FunctionIndex

/-- A handler that has a body stays what it is if the index has further names behind. -/
theorem Handler.resolve_of_get? {index longer : FunctionIndex} {event : String} {e : Node}
    (hlonger : ∀ name body, index.get? name = some body → longer.get? name = some body)
    (h : (resolve index event e).2.isSome = true) :
    resolve longer event e = resolve index event e := by
  have hsame {name : String} (hknown : (index.get? name).isSome = true) :
      index.get? name = longer.get? name := by
    obtain ⟨body, hbody⟩ := Option.isSome_iff_exists.mp hknown
    rw [hbody, hlonger name body hbody]
  cases hfound : resolve index event e with
  | mk name body? =>
    rw [hfound] at h
    have hrefers : Refers index event e name body? := refers_iff.mpr hfound
    refine refers_iff.mp ?_
    -- only the names and methods are looked up; a body that is written stays as it is
    cases hrefers with
    | written hbody => exact .written hbody
    | named hname =>
      rw [hsame h]
      exact .named hname
    | method hnot hmethod =>
      rw [hsame h]
      exact .method hnot hmethod
    | other => cases h

/-- **What the index of a module knows**, and what further code does to it. -/
structure FunctionIndex.Laws (m : Module) : Prop where
  /-- With items behind, names that are known keep their functions, and other names are those of
  the items behind. -/
  first : ∀ (b : Module) (name : String),
    (ofModule (m ++ b)).get? name = ((ofModule m).get? name).or ((ofModule b).get? name)
  /-- So a handler whose function is in the file is still that function. -/
  stable : ∀ (b : Module) (event : String) (e : Node),
    (Handler.resolve (ofModule m) event e).2.isSome = true →
      Handler.resolve (ofModule (m ++ b)) event e = Handler.resolve (ofModule m) event e
  /-- The names are those that words as keys lead to: no others, but not all that any keys lead
  to. -/
  known : ∀ name, ((ofModule m).contains name = true ↔ Knows plainKeys m name) ∧
    ((ofModule m).contains name = true → Knows allKeys m name)

/-- **The laws of the index** hold of every module. -/
theorem FunctionIndex.laws (m : Module) : Laws m where
  first := get?_ofModule_append m
  stable b event e h := by
    refine Handler.resolve_of_get? (fun name body hbody => ?_) h
    rw [get?_ofModule_append, hbody]
    rfl
  known _ := ⟨contains_ofModule_iff, fun h => (contains_ofModule_iff.mp h).of_plainKeys⟩

/-- A class with a method whose key is a text: `class C { 'save'() {} }`. -/
def textMethod : Module :=
  let method : Node := ⟨.method, 11,
    [.leaf (.stringKey "save") 11, ⟨.fn, 17, [.list [], .leaf .body 20, .list [], .absent]⟩]⟩
  let cls : Node := ⟨.cls, 9, [.list [method], .absent, .list [], .list [], .list []]⟩
  [⟨.declStmt, 1, [⟨.classDecl, 1, [.leaf (.binder "C") 7, cls]⟩]⟩]

/-- The method has a name, and the index does not know it. -/
theorem not_contains_textMethod :
    Knows allKeys textMethod "save" ∧ (ofModule textMethod).contains "save" = false ∧
      ¬∀ name, (ofModule textMethod).contains name = true ↔ Knows allKeys textMethod name := by
  have hknows : Knows allKeys textMethod "save" := by
    refine ⟨_, List.mem_cons_self, _, .block [], .head (.declaration (by decide) _ _) (.head
      (.cls (by decide) _ _ _) (.single (.member List.mem_cons_self _ _))), ?_⟩
    exact .method rfl rfl 11
  have hcontains : (ofModule textMethod).contains "save" = false := rfl
  refine ⟨hknows, hcontains, fun hexact => ?_⟩
  rw [(hexact "save").mpr hknows] at hcontains
  cases hcontains

end JsxWidgets
