import JsxWidgets.Proofs.Behaviour.VariableReads
import JsxWidgets.Proofs.Expression.Paths
import JsxWidgets.Proofs.Grammar.TagRules
import JsxWidgets.Proofs.Structure.RenderedMarkup
import JsxWidgets.Proofs.Syntax.Surroundings

/-!
# Where state variables are changed and handed on

A variable of a hook is changed by calls of its setter, and a key of the state of a class by calls
of `this.setState` with an object that writes the key. Both are handed on by the attributes whose
value they are. `UsageExact` says that what is recorded of a variable are exactly these calls and
attributes, each once and in order.

The walk through a module finds what can be read off the nodes that it sees (`updates_findings`,
`passings_findings`). For a variable of a hook it sees all nodes. For a key of a class it does not
look into a member that is the key, which may have types in it, and it takes the argument of a call
also where that is spread. Apart from this the record is exact (`usageExact_iff`).

Two things are asked of a module. `Syntax.Module.Spelled` holds of every module that has been read,
but for two kinds of words that have to be asked for (`Syntax.Module.spelled_of_read?`).
`Syntax.Module.CallsApart` is needed in one direction only: that the record is exact where nothing
is hidden or spread holds without it (`UsageExact.of_forall_eq_nil`). It does not ask that no two
calls start at one location, since reading can keep one call in two parts of the tree
(`Syntax.Module.read?_keeps_parameters`).
-/

namespace JsxWidgets

open Syntax Expression

namespace Usage

/-! ### Calls that change a variable -/

/-- Whether a node is a call of a name, possibly in parentheses. -/
def callsName (name : String) (n : Node) : Bool :=
  match n with
  | ⟨.call, _, callee :: _⟩ => callee.unwrap.form = .name name
  | _ => false

/-- Whether a node is a call of `this.setState`. -/
def callsSetState (n : Node) : Bool :=
  match n with
  | ⟨.call, _, callee :: _⟩ =>
    match callee.unwrap with
    | ⟨.member, _, [object, ⟨.word "setState", _, _⟩]⟩ => object.unwrap.form = .this
    | _ => false
  | _ => false

/-- The properties of the object that a value is. -/
def objectProperties (e : Node) : List Node :=
  match e.unwrap with
  | ⟨.object, _, properties⟩ => properties
  | _ => []

/-- The properties of the object that a value is, or that it gives as an arrow function. -/
def givenProperties (e : Node) : List Node :=
  match e.unwrap with
  | ⟨.arrow, _, _ :: result :: _⟩ => objectProperties result
  | _ => objectProperties e

/-- Whether a property writes a key, as a key with a value or as a variable of that name. -/
def isWriteOf (key : String) (property : Node) : Bool :=
  match property with
  | ⟨.keyed, _, k :: _⟩ => keyName? k = some key
  | ⟨.shorthand t, _, _⟩ => t = key
  | _ => false

/-- The first argument of a call, if it is a single value. -/
def firstValue? (call : Node) : Option Node :=
  match arguments call with
  | ⟨.item, _, [e]⟩ :: _ => some e
  | _ => none

/-- **Whether a node is a call of `this.setState` that writes a key.** -/
def writesKey (key : String) (n : Node) : Bool :=
  callsSetState n && (firstValue? n).any fun e => (givenProperties e).any (isWriteOf key)

/-- Whether a node is a call of `this.setState` whose first argument is no single value, but would
write a key if it were. -/
def spreadsKey (key : String) (n : Node) : Bool :=
  callsSetState n && (firstValue? n).isNone &&
    (argument? n 0).any fun e => (givenProperties e).any (isWriteOf key)

/-- The key that a property gives is asked for exactly if the property writes it. -/
theorem writtenKey?_eq (key : String) (property : Node) :
    (match property with
      | ⟨.keyed, _, k :: _⟩ => keyName? k
      | ⟨.shorthand t, _, _⟩ => some t
      | _ => none) = some key ↔ isWriteOf key property = true := by
  unfold isWriteOf
  split <;> simp

/-- An object writes a key if one of its properties does. -/
theorem contains_writtenKeys (key : String) (e : Node) :
    (writtenKeys e).contains key = (objectProperties e).any (isWriteOf key) := by
  fun_cases writtenKeys e with
  | case1 place properties hobject =>
    have hproperties : objectProperties e = properties := by rw [objectProperties, hobject]
    rw [hproperties, Bool.eq_iff_iff, List.contains_iff_mem, List.mem_filterMap, List.any_eq_true]
    exact exists_congr fun property => and_congr_right fun _ => writtenKey?_eq key property
  | case2 hnone =>
    have hproperties : objectProperties e = [] := by
      unfold objectProperties
      split
      next place properties hobject => exact (hnone place properties hobject).elim
      next => rfl
    rw [hproperties]
    rfl

/-- A value writes a key if it is an object that does, or an arrow function that gives one. -/
theorem contains_stateKeys (key : String) (e : Node) :
    (stateKeys e).contains key = (givenProperties e).any (isWriteOf key) := by
  fun_cases stateKeys e with
  | case1 place parameters result rest harrow =>
    have hgiven : givenProperties e = objectProperties result := by rw [givenProperties, harrow]
    rw [hgiven]
    exact contains_writtenKeys key result
  | case2 hnone =>
    -- A value that is no arrow is looked at without its wrappers, which makes no difference.
    have hgiven : givenProperties e = objectProperties e := by
      unfold givenProperties
      split
      next place parameters result rest harrow =>
        exact (hnone place parameters result rest harrow).elim
      next => rfl
    have hunwrapped : objectProperties e.unwrap = objectProperties e := by
      rw [objectProperties, Node.unwrap_unwrap]
      rfl
    rw [hgiven, ← hunwrapped]
    exact contains_writtenKeys key e.unwrap

/-! ### Attributes that hand a variable on -/

/-- What an attribute with an expression in braces hands on to a tag, if it is what is asked for. -/
def handing? (isIt : Node → Bool) (tag : TagName) (attr : Node) : Option PropPassing :=
  match attr with
  | ⟨.attr name, _, [⟨.container, _, [e]⟩]⟩ =>
    if isIt e then some ⟨tag.text, name.text⟩ else none
  | _ => none

/-- What the attributes of an opening tag hand on. -/
def handings (isIt : Node → Bool) (n : Node) : List PropPassing :=
  match n with
  | ⟨.opening tag, _, ⟨_, _, attributes⟩ :: _⟩ => attributes.filterMap (handing? isIt tag)
  | _ => []

/-- Whether an expression is a variable, possibly in parentheses. -/
def isVariable (name : String) (e : Node) : Bool := e.unwrap.form = .name name

/-- Whether an expression is the member of the state with a key. -/
def isStateMember (key : String) (e : Node) : Bool :=
  e.unwrap.form = .member ∧ path? e = some ("this.state." ++ key)

/-- A variable of a hook is named by variables of its name. -/
theorem isNamedBy_hook_eq (name setter : String) :
    (Subject.hook name setter).isNamedBy = isVariable name :=
  funext (isNamedBy_hook name setter)

/-- A key of a class is named by the members of the state with the key. -/
theorem isNamedBy_classKey_eq (key : String) :
    (Subject.classKey key).isNamedBy = isStateMember key := by
  funext e
  -- the prefix is taken off the path, the key is what is left
  have hpath : (path? e.unwrap).bind (Text.dropStart? "this.state.") = some key
      ↔ path? e = some ("this.state." ++ key) := by
    rw [path?_unwrap, Option.bind_eq_some_iff]
    constructor
    · rintro ⟨path, he, hdrop⟩
      rw [he, Text.dropStart?_eq_some_iff.mp hdrop]
    · exact fun he => ⟨_, he, Text.dropStart?_eq_some_iff.mpr rfl⟩
  rw [Bool.eq_iff_iff, isStateMember, decide_eq_true_iff, ← hpath, Subject.isNamedBy.eq_def]
  split
  next hsubject _ => cases hsubject
  next key' hkey hform =>
    cases hkey
    simp [hform]
  next _ hmember =>
    simp only [Bool.false_eq_true, false_iff, not_and]
    intro hform
    exact (hmember key rfl hform).elim

/-! ### What the walk finds -/

/-- The place of a change. -/
def updatePlaces : Finding → List Place
  | .update place => [place]
  | _ => []

/-- What is handed on. -/
def passedOn : Finding → List PropPassing
  | .passed p => [p]
  | _ => []

/-- The changes among findings are gathered one finding after the other. -/
theorem updates_eq (fs : List Finding) : updates fs = fs.flatMap updatePlaces := by
  rw [updates, List.filterMap_eq_flatMap_toList]
  refine List.flatMap_congr fun f _ => ?_
  cases f <;> rfl

/-- So is what is handed on. -/
theorem passings_eq (fs : List Finding) : passings fs = fs.flatMap passedOn := by
  rw [passings, List.filterMap_eq_flatMap_toList]
  refine List.flatMap_congr fun f _ => ?_
  cases f <;> rfl

/-- The nodes that the walk for a subject sees. -/
def traversed (s : Subject) (nodes : List Node) : List Node :=
  (survey s).seen.runAll ⟨[], false⟩ nodes

/-- The nodes that the walk for a subject does not look into. -/
def skipped (s : Subject) (nodes : List Node) : List Node :=
  (survey s).missed.runAll (some ⟨[], false⟩) nodes

/-- **Every node of a module is seen or skipped**, and no node is both. -/
theorem parted_traversed (s : Subject) (m : Module) :
    Parted m.nodes (traversed s m) (skipped s m) :=
  (survey s).parted_runAll ⟨[], false⟩ m

/-- The same holds below a single node. -/
theorem parted_traversed_node (s : Subject) (n : Node) :
    Parted n.nodes (traversed s [n]) (skipped s [n]) := by
  have hparted := parted_traversed s [n]
  rwa [Module.nodes, Node.nodesOf_eq_flatMap, List.flatMap_singleton] at hparted

/-- Nothing is named where there is no expression. -/
theorem isNamedBy_absent (s : Subject) (place : Place) (parts : List Node) :
    s.isNamedBy ⟨.absent, place, parts⟩ = false := by
  cases s with
  | hook name setter => rw [isNamedBy_hook, Node.unwrap.eq_def]; rfl
  | classKey key => rw [isNamedBy_classKey_eq, isStateMember, Node.unwrap.eq_def]; rfl

/-- The value of an attribute is an expression if it stands in braces and is not absent. -/
theorem attributeValue_eq_expression_iff {attr e : Node} :
    attr.attributeValue = .expression e ↔
      e.form ≠ .absent ∧ ∃ name p q, attr = ⟨.attr name, p, [⟨.container, q, [e]⟩]⟩ := by
  constructor
  · intro h
    unfold Node.attributeValue at h
    split at h
    next name p value =>
      split at h
      next => cases h
      next => cases h
      next => cases h
      -- Of all values only braces with something in them are an expression.
      next q e' hpresent =>
        cases h
        obtain ⟨form, place, parts⟩ := e
        refine ⟨?_, name, p, q, rfl⟩
        rintro rfl
        exact hpresent place parts rfl
      next => cases h
    next => cases h
  · rintro ⟨hpresent, name, p, q, rfl⟩
    obtain ⟨form, place, parts⟩ := e
    unfold Node.attributeValue
    dsimp only
    split
    next heq => cases heq
    next heq => cases heq
    next heq =>
      cases heq
      exact (hpresent rfl).elim
    next heq =>
      cases heq
      rfl
    next _ _ _ hother => exact (hother _ _ rfl).elim

/-- What an attribute hands on is told by its value. -/
theorem passing?_eq (s : Subject) (tag : TagName) (attr : Node) :
    passing? s tag attr = (handing? s.isNamedBy tag attr).map .passed := by
  unfold handing?
  split
  next name p q e =>
    -- Empty braces have no value, but they are not what is asked for either.
    by_cases habsent : e.form = .absent
    · obtain ⟨form, place, parts⟩ := e
      obtain rfl : form = .absent := habsent
      rw [isNamedBy_absent]
      rfl
    · rw [passing?, attributeValue_eq_expression_iff.mpr ⟨habsent, name, p, q, rfl⟩]
      dsimp only
      split <;> rfl
  next hnone =>
    rw [passing?.eq_def]
    split
    next name e hform hvalue =>
      obtain ⟨-, name, p, q, heq⟩ := attributeValue_eq_expression_iff.mp hvalue
      exact (hnone name p q e heq).elim
    next => rfl

/-- Only opening tags hand something on. -/
theorem handings_of_form {isIt : Node → Bool} {n : Node} (h : ∀ tag, n.form ≠ .opening tag) :
    handings isIt n = [] := by
  unfold handings
  split
  next => exact (h _ rfl).elim
  next => rfl

/-- What is found at an opening tag are the attributes that hand the subject on. -/
theorem flatMap_passedOn_opening (s : Subject) {tag : TagName} {n : Node}
    (hform : n.form = .opening tag) :
    (n.attributes.filterMap (passing? s tag)).flatMap passedOn = handings s.isNamedBy n := by
  obtain ⟨form, place, parts⟩ := n
  obtain rfl : form = .opening tag := hform
  have hattributes : ∀ attributes : List Node,
      (attributes.filterMap (passing? s tag)).flatMap passedOn
        = attributes.filterMap (handing? s.isNamedBy tag) := by
    intro attributes
    rw [List.filterMap_congr fun attr _ => passing?_eq s tag attr, ← List.map_filterMap,
      List.flatMap_map]
    exact List.flatMap_singleton' _
  -- the attributes are the parts of the first part
  cases parts with
  | nil => rfl
  | cons part rest =>
    obtain ⟨form, p, attributes⟩ := part
    exact hattributes attributes

/-- **What is handed on at a node** is what the attributes of an opening tag hand on. -/
theorem flatMap_passedOn_note (s : Subject) (a : Around) (n : Node) :
    (note s a n).flatMap passedOn = handings s.isNamedBy n := by
  -- Neither a read nor a change hands anything on.
  have hread : ∀ (c : Prop) [Decidable c] (r : ReadLocation Place),
      (if c then [Finding.read r] else []).flatMap passedOn = [] :=
    fun c _ r => flatMap_ite_eq_nil rfl c
  have hupdate : ∀ (c : Prop) [Decidable c] (place : Place),
      (if c then [Finding.update place] else []).flatMap passedOn = [] :=
    fun c _ place => flatMap_ite_eq_nil rfl c
  rw [note.eq_def]
  split
  next hexpr =>
    rw [handings_of_form fun tag h => by rw [h] at hexpr; cases hexpr]
    split
    · rfl
    · rw [expressionFindings, List.flatMap_append, hread, hupdate]
      rfl
  next =>
    split
    next hform => rw [hread, handings_of_form fun tag h => by rw [h] at hform; cases hform]
    next tag hform => exact flatMap_passedOn_opening _ hform
    next hform => rw [hread, handings_of_form fun tag h => by rw [h] at hform; cases hform]
    next hopening _ _ => rw [handings_of_form hopening]; rfl

/-- Looking at nodes alone goes the same way as the survey does. -/
theorem contextAt_seen {γ ε : Type} (s : Survey γ ε) (c : γ) (around : List Node) :
    s.seen.contextAt c around = s.contextAt c around := by
  induction around with
  | nil => rfl
  | cons n around ih =>
    rw [Survey.contextAt, Survey.contextAt, ih]
    rfl

/-- What is around the target of an assignment is the assignment to it. -/
theorem target_of_contextAt {s : Subject} {around : List Node} {a : Around}
    (h : (survey s).contextAt ⟨[], false⟩ around = some a) (ha : a.isTarget = true) :
    ∃ t outer, around = t :: outer ∧ t.form = .target := by
  cases around with
  | nil =>
    cases h
    cases ha
  | cons t outer =>
    refine ⟨t, outer, rfl, ?_⟩
    obtain ⟨inner, -, henter⟩ := Option.bind_eq_some_iff.mp h
    change enter s inner t 0 = some a at henter
    -- every other way into a node forgets that it stands at a target
    by_contra htarget
    rw [enter, if_neg htarget] at henter
    split at henter
    · cases henter
      cases ha
    · split at henter
      · cases henter
      · split at henter
        · cases henter
          cases ha
        · cases henter
          cases ha

/-- **What is handed on** is read off the nodes that are seen. -/
theorem passings_findings (s : Subject) (nodes : List Node) :
    passings (findings s nodes) = (traversed s nodes).flatMap (handings s.isNamedBy) := by
  have halike : Survey.Alike (survey s) (survey s).seen passedOn (handings s.isNamedBy) Eq := by
    refine ⟨?_, ?_⟩
    · rintro a _ rfl n
      exact (flatMap_passedOn_note s a n).trans (List.flatMap_singleton _ n).symm
    · rintro a _ rfl n number
      change Option.Rel Eq (enter s a n number) (enter s a n number)
      cases enter s a n number with
      | none => exact Option.Rel.none
      | some inner => exact Option.Rel.some rfl
  rw [passings_eq]
  exact halike.runAll rfl nodes

/-- Whether a node is a call that changes a subject. -/
def isChange (s : Subject) (n : Node) : Bool := n.form = .call ∧ s.isChangedBy n

/-- No call is the target of an assignment. -/
def CallsNotAssigned (nodes : List Node) : Prop :=
  ∀ n ∈ Node.nodesOf nodes, n.form = .target → ∀ part ∈ n.parts, part.form ≠ .call

/-- At a node the walk finds a change exactly if it is a call that changes the subject; as the
target of an assignment it must not be one. -/
theorem flatMap_updatePlaces_note {s : Subject} {a : Around} {n : Node}
    (hn : a.isTarget = true → n.form ≠ .call) :
    (note s a n).flatMap updatePlaces = if isChange s n then [n.place] else [] := by
  -- Neither a read nor an attribute is a change.
  have hread : ∀ (c : Prop) [Decidable c] (r : ReadLocation Place),
      (if c then [Finding.read r] else []).flatMap updatePlaces = [] :=
    fun c _ r => flatMap_ite_eq_nil rfl c
  have hother : n.form ≠ .call → isChange s n = false := by
    intro hform
    rw [isChange, decide_eq_false_iff_not]
    exact fun h => hform h.1
  rw [note.eq_def]
  split
  next hexpr =>
    split
    next htarget => rw [hother (hn htarget)]; rfl
    next =>
      rw [expressionFindings, List.flatMap_append, hread, List.nil_append]
      by_cases hchange : n.form = .call ∧ s.isChangedBy n = true
      · simp [isChange, hchange, updatePlaces]
      · simp [isChange, hchange]
  next hexpr =>
    have hform : n.form ≠ .call := by
      intro h
      rw [h] at hexpr
      exact hexpr rfl
    rw [hother hform]
    split
    next => exact hread _ _
    next tag _ => exact flatMap_passing_eq_nil (fun _ => rfl) _ tag _
    next => exact hread _ _
    next => rfl

/-- **The changes** are read off the nodes that are seen. -/
theorem updates_findings (s : Subject) {nodes : List Node} (hnodes : CallsNotAssigned nodes) :
    updates (findings s nodes) = ((traversed s nodes).filter (isChange s)).map (·.place) := by
  rw [updates_eq, findings, traversed, Survey.runAll_placed (fun _ _ _ => rfl),
    Survey.runAll_placed (fun _ _ _ => rfl), List.flatMap_assoc, List.filter_flatMap,
    List.map_flatMap]
  refine List.flatMap_congr fun x hx => ?_
  rw [Survey.noteAt, Survey.noteAt, contextAt_seen]
  cases hcontext : (survey s).contextAt ⟨[], false⟩ x.around with
  | none => rfl
  | some a =>
    -- The walk passes over targets of assignments, but no call is one.
    have hcall : a.isTarget = true → x.node.form ≠ .call := by
      intro ha
      obtain ⟨t, outer, haround, htarget⟩ := target_of_contextAt hcontext ha
      have hplaced : (⟨t, outer⟩ : Placed) ∈ Module.placed nodes :=
        Module.mem_placed_of_around hx (haround ▸ List.suffix_rfl)
      have hchain := Module.isChain_placed hx
      rw [haround] at hchain
      have hpart : x.node ∈ t.parts := (List.isChain_cons_cons.mp hchain).1
      exact hnodes t (Module.mem_nodes_of_mem_placed hplaced) htarget x.node hpart
    change (note s a x.node).flatMap updatePlaces = ([x.node].filter (isChange s)).map (·.place)
    rw [flatMap_updatePlaces_note hcall]
    cases hchange : isChange s x.node <;> simp [hchange]

/-! ### Changes and calls -/

/-- The walk for a variable of a hook sees all nodes. -/
theorem traversed_hook (name setter : String) (m : Module) :
    traversed (.hook name setter) m = m.nodes := by
  have henter : ∀ c n number, ((survey (.hook name setter)).seen.enter c n number).isSome := by
    intro a n number
    obtain ⟨inner, hinner, -⟩ := enter_hook name setter a n number
    exact Option.isSome_iff_exists.mpr ⟨inner, hinner⟩
  have hall := Survey.runAll_eq_nodes (s := (survey (.hook name setter)).seen)
    (f := fun n => [n]) (g := fun n => [n]) (fun _ _ => rfl) henter ⟨[], false⟩ m
  rwa [List.flatMap_singleton', List.flatMap_singleton'] at hall

/-- A call of a name calls it, wrappers aside. -/
theorem callsName_iff {name : String} {n : Node} :
    callsName name n = true ↔
      ∃ place callee rest, n = ⟨.call, place, callee :: rest⟩ ∧
        callee.unwrap.form = .name name := by
  constructor
  · intro h
    unfold callsName at h
    split at h
    next place callee rest => exact ⟨place, callee, rest, rfl, of_decide_eq_true h⟩
    next => cases h
  · rintro ⟨place, callee, rest, rfl, h⟩
    exact decide_eq_true h

/-- A variable of a hook is changed by the calls of its setter. -/
theorem isChange_hook {setter : String} (hplain : IsBareName setter) (hthis : setter ≠ "this")
    (name : String) (n : Node) : isChange (.hook name setter) n = callsName setter n := by
  rw [Bool.eq_iff_iff, isChange, decide_eq_true_iff, callsName_iff]
  change n.form = .call ∧ decide (calleePath? n = some setter) = true ↔ _
  rw [decide_eq_true_iff, calleePath?_eq_some_iff]
  constructor
  · rintro ⟨-, place, callee, rest, rfl, hpath⟩
    exact ⟨place, callee, rest, rfl, (path?_eq_bareName_iff hplain hthis).mp hpath⟩
  · rintro ⟨place, callee, rest, rfl, hname⟩
    exact ⟨rfl, place, callee, rest, rfl, (path?_eq_bareName_iff hplain hthis).mpr hname⟩

/-- **What a call calls is no name for the current object or a member of it**: it is no variable
that is spelled like `this.setState`, and no member of one that is spelled like `this`. -/
def calleeFits (n : Node) : Bool :=
  match n with
  | ⟨.call, _, callee :: _⟩ =>
    match callee.unwrap with
    | ⟨.member, _, object :: _⟩ => object.unwrap.form ≠ .name "this"
    | e => e.form ≠ .name "this.setState"
  | _ => true

/-- A call of `this.setState` calls the member of that name, wrappers aside. -/
theorem callsSetState_eq_true_iff {n : Node} :
    callsSetState n = true ↔
      ∃ place callee rest p object q parts, n = ⟨.call, place, callee :: rest⟩ ∧
        callee.unwrap = ⟨.member, p, [object, ⟨.word "setState", q, parts⟩]⟩ ∧
          object.unwrap.form = .this := by
  constructor
  · intro h
    unfold callsSetState at h
    split at h
    next place callee rest =>
      split at h
      next p object q parts hcallee =>
        exact ⟨place, callee, rest, p, object, q, parts, rfl, hcallee, of_decide_eq_true h⟩
      next => cases h
    next => cases h
  · rintro ⟨place, callee, rest, p, object, q, parts, rfl, hcallee, hobject⟩
    rw [callsSetState, hcallee]
    exact decide_eq_true hobject

/-- A call of `this.setState` is told by the path of what it calls. -/
theorem callsSetState_iff {n : Node} (hn : calleeFits n = true) :
    callsSetState n = true ↔ calleePath? n = some "this.setState" := by
  have hplain : IsBareName "this" ∧ IsBareName "setState" := by decide
  have hpath : ∀ {e : Node}, path? e = some "this.setState" ↔
      (∃ p object q parts, e.unwrap = ⟨.member, p, [object, ⟨.word "setState", q, parts⟩]⟩ ∧
        path? object = some "this") ∨ e.unwrap.form = .name "this.setState" :=
    path?_eq_member_iff hplain.1 hplain.2
  rw [callsSetState_eq_true_iff, calleePath?_eq_some_iff]
  constructor
  · rintro ⟨place, callee, rest, p, object, q, parts, rfl, hcallee, hobject⟩
    refine ⟨place, callee, rest, rfl, hpath.mpr (Or.inl ?_)⟩
    exact ⟨p, object, q, parts, hcallee, path?_of_this hobject⟩
  · rintro ⟨place, callee, rest, rfl, h⟩
    rw [calleeFits] at hn
    -- the path may also be read off an identifier with a dot in it, which the hypothesis excludes
    rcases hpath.mp h with ⟨p, object, q, parts, hcallee, hobject⟩ | hname
    · rw [hcallee, decide_eq_true_iff] at hn
      have hthis := (path?_eq_this_iff.mp hobject).resolve_right hn
      exact ⟨place, callee, rest, p, object, q, parts, rfl, hcallee, hthis⟩
    · generalize callee.unwrap = e at hn hname
      obtain ⟨form, q, parts⟩ := e
      obtain rfl : form = .name "this.setState" := hname
      exact (of_decide_eq_true hn rfl).elim

/-- The first argument that is a single value is the first argument that the walk takes. -/
theorem argument?_of_firstValue? {n e : Node} (h : firstValue? n = some e) :
    argument? n 0 = some e := by
  unfold firstValue? at h
  split at h
  next place _ more hargs =>
    cases h
    rw [argument?, hargs]
    rfl
  next => cases h

/-- A key of a class is changed by the calls that write it, and by those that spread a write. -/
theorem isChange_classKey (key : String) {n : Node} (hn : calleeFits n = true) :
    isChange (.classKey key) n = (writesKey key n || spreadsKey key n) := by
  have hkeys : (fun arg => (stateKeys arg).contains key)
      = fun arg => (givenProperties arg).any (isWriteOf key) :=
    funext (contains_stateKeys key)
  rw [isChange, writesKey, spreadsKey, Subject.isChangedBy, hkeys]
  cases hcalls : callsSetState n with
  | false =>
    have hpath : calleePath? n ≠ some "this.setState" := by
      rw [ne_eq, ← callsSetState_iff hn, hcalls]
      exact Bool.false_ne_true
    simp [hpath]
  | true =>
    have hform : n.form = .call := by
      obtain ⟨_, _, _, _, _, _, _, rfl, -⟩ := callsSetState_eq_true_iff.mp hcalls
      rfl
    -- The first argument is the one that is looked at, whether it is a single value or not.
    cases hfirst : firstValue? n with
    | none => simp [hform, (callsSetState_iff hn).mp hcalls]
    | some e =>
      rw [Bool.eq_iff_iff]
      simp [hform, (callsSetState_iff hn).mp hcalls, argument?_of_firstValue? hfirst]

/-- A call cannot both write a key and spread it. -/
theorem spreadsKey_of_writesKey {key : String} {n : Node} (h : writesKey key n = true) :
    spreadsKey key n = false := by
  rw [writesKey, Bool.and_eq_true] at h
  obtain ⟨e, hfirst, -⟩ := (Option.any_eq_true _ _).mp h.2
  rw [spreadsKey, hfirst, Option.isNone_some, Bool.and_false, Bool.false_and]

end Usage

/-! ### Variables of classes -/

/-- The class that is the component of a module. -/
def Syntax.Module.classComponent? (m : Module) : Option Node :=
  m.component?.bind fun c =>
    match c.body with
    | .classBody cls => some cls
    | _ => none

/-- The variables of the class of a module, which come last. -/
def classVariables (m : Module) (locate : Locator) : List (StateVariable Location) :=
  (analyzeState m locate).stateVariables.drop m.stateCalls.length

/-- The variables of the class are those of its component. -/
theorem classVariables_eq (m : Module) (locate : Locator) :
    classVariables m locate = (StateVariable.ofClassComponent m).map fun v => v.map locate := by
  rw [classVariables, stateVariables_eq, List.drop_left' (by simp)]

/-- The variables of a class are its keys. -/
theorem exists_entry_of_mem_classVariables {m : Module} {locate : Locator}
    {v : StateVariable Location} (hv : v ∈ classVariables m locate) {cls : Node}
    (hcls : m.classComponent? = some cls) :
    ∃ entry, v = (StateVariable.ofClassKey cls entry).map locate := by
  rw [classVariables_eq] at hv
  obtain ⟨w, hw, rfl⟩ := List.mem_map.mp hv
  unfold StateVariable.ofClassComponent at hw
  unfold Module.classComponent? at hcls
  cases hc : m.component? with
  | none => rw [hc] at hcls; cases hcls
  | some c =>
    obtain ⟨name, kind, body⟩ := c
    rw [hc] at hw hcls
    -- only a class body has state entries
    cases body with
    | function fn => cases hcls
    | arrow fn => cases hcls
    | classBody cls' =>
      cases hcls
      dsimp only at hw
      split at hw
      next state hstate =>
        obtain ⟨entry, -, rfl⟩ := List.mem_map.mp hw
        exact ⟨entry, rfl⟩
      next => cases hw

/-! ### The record -/

/-- **The names in a module are spelled like names**, and no call is assigned to. -/
structure Syntax.Module.Spelled (m : Module) : Prop where
  /-- No setter is named like the current object or a member. -/
  setters : ∀ c ∈ m.stateCalls, IsBareName (Hook.stateNames c.pattern).2 ∧
    (Hook.stateNames c.pattern).2 ≠ "this"
  /-- Nor is a variable that is called or whose member is called. -/
  callees : ∀ n ∈ m.nodes, Usage.calleeFits n = true
  /-- No call is the target of an assignment. -/
  targets : Usage.CallsNotAssigned m

/-- A well-formed call calls no member of a variable that is spelled like the current object. -/
theorem Usage.calleeFits_of_wellFormed {n : Node} (hn : n.form = .call → n.WellFormed)
    (hname : ∀ k ∈ n.nodes, k.form ≠ .name "this.setState") : calleeFits n = true := by
  unfold calleeFits
  split
  next place callee rest =>
    have hcallee : callee.unwrap.WellFormed :=
      ((hn rfl).parts rfl callee List.mem_cons_self).unwrap
    split
    next p object rest' heq =>
      have hparts := (heq ▸ hcallee).parts rfl
      exact decide_eq_true (hparts object List.mem_cons_self).unwrap.form_ne_this
    next =>
      refine decide_eq_true (hname callee.unwrap ?_)
      exact Node.nodes_subset (Node.first_mem_nodes ..) callee.unwrap_mem_nodes
  next => rfl

/-- **A module that has been read is spelled so** if the words in it are. Two kinds of words have to
be asked for: where types may be stated a setter can be called `this`, and where a fault in it is
recovered from a word can keep a point that is escaped in it. -/
theorem Syntax.Module.spelled_of_read? {dialect : Dialect} {chars : List Char} {m : Module}
    {faults : List Fault} (hread : Module.read? dialect chars = some (m, faults))
    (hsetters : ∀ c ∈ m.stateCalls, IsBareName (Hook.stateNames c.pattern).2 ∧
      (Hook.stateNames c.pattern).2 ≠ "this")
    (hnames : ∀ n ∈ m.nodes, n.form ≠ .name "this.setState") : m.Spelled := by
  have hformed : ∀ n ∈ m.nodes, n.form.isLoose = false → n.WellFormed := by
    intro n hn hform
    obtain ⟨item, hitem, hn⟩ := Node.mem_nodesOf.mp hn
    exact (Module.wellFormed_of_read? hread item hitem).of_mem_nodes hn hform
  refine ⟨hsetters, fun n hn => ?_, fun n hn hform => ?_⟩
  · refine Usage.calleeFits_of_wellFormed (fun hform => hformed n hn (hform ▸ rfl)) fun k hk => ?_
    exact hnames k (Node.mem_nodesOf_of_mem_nodes hn hk)
  · exact (hformed n hn (hform ▸ rfl)).form_ne_call_of_target hform

/-- **What is recorded of the changes of state variables and of their handing on is exact.** -/
structure UsageExact (m : Module) (locate : Locator) : Prop where
  /-- A variable of a hook is changed by the calls of its setter in the module. -/
  hookUpdates : ∀ v ∈ hookVariables m locate,
    v.updates = (m.nodes.filter (Usage.callsName v.setter)).map fun n => locate n.place
  /-- It is handed on by the attributes in the module whose value is the variable. -/
  hookPassed : ∀ v ∈ hookVariables m locate,
    v.passed = m.nodes.flatMap (Usage.handings (Usage.isVariable v.name))
  /-- A key of the state is changed by the calls in the class that write it. -/
  classUpdates : ∀ cls ∈ m.classComponent?, ∀ v ∈ classVariables m locate,
    v.updates = (cls.nodes.filter (Usage.writesKey v.name)).map fun n => locate n.place
  /-- It is handed on by the attributes in the traversed code of the class whose value is the member
  of the state. -/
  classPassed : ∀ cls ∈ m.classComponent?, ∀ v ∈ classVariables m locate,
    v.passed = (Usage.traversed (.classKey v.name) [cls]).flatMap
      (Usage.handings (Usage.isStateMember v.name))

/-- The calls that write a key where the walk does not look. -/
def hiddenWrites (key : String) (cls : Node) : List Node :=
  (Usage.skipped (.classKey key) [cls]).filter (Usage.writesKey key)

/-- The calls that are taken for writes of a key, though what they are given is spread. -/
def spreadWrites (key : String) (cls : Node) : List Node :=
  (Usage.traversed (.classKey key) [cls]).filter (Usage.spreadsKey key)

section

variable {m : Module} {locate : Locator} {v : StateVariable Location}

/-- **A variable of a hook is changed by the calls of its setter**, and by nothing else. -/
theorem hook_updates (hm : m.Spelled) (hv : v ∈ hookVariables m locate) :
    v.updates = (m.nodes.filter (Usage.callsName v.setter)).map fun n => locate n.place := by
  rw [hookVariables_eq] at hv
  obtain ⟨h, hh, rfl⟩ := List.mem_map.mp hv
  obtain ⟨c, hc, rfl⟩ := List.mem_map.mp hh
  obtain ⟨hplain, hthis⟩ := hm.setters c hc
  change (Usage.updates (Usage.findings (.hook _ _) m)).map locate = _
  rw [Usage.updates_findings _ hm.targets, Usage.traversed_hook, List.map_map]
  refine congrArg (List.map _) (List.filter_congr fun n _ => ?_)
  exact Usage.isChange_hook hplain hthis _ n

/-- **It is handed on by the attributes whose value it is.** -/
theorem hook_passed (hv : v ∈ hookVariables m locate) :
    v.passed = m.nodes.flatMap (Usage.handings (Usage.isVariable v.name)) := by
  rw [hookVariables_eq] at hv
  obtain ⟨h, -, rfl⟩ := List.mem_map.mp hv
  change Usage.passings (Usage.findings (.hook _ _) m) = _
  rw [Usage.passings_findings, Usage.traversed_hook, Usage.isNamedBy_hook_eq]
  rfl

variable {cls : Node} (hcls : m.classComponent? = some cls)
include hcls

/-- **A key of a class is handed on by the attributes whose value is its member**, as far as the
walk sees them. -/
theorem class_passed (hv : v ∈ classVariables m locate) :
    v.passed = (Usage.traversed (.classKey v.name) [cls]).flatMap
      (Usage.handings (Usage.isStateMember v.name)) := by
  obtain ⟨entry, rfl⟩ := exists_entry_of_mem_classVariables hv hcls
  change Usage.passings (Usage.findings (.classKey _) [cls]) = _
  rw [Usage.passings_findings, Usage.isNamedBy_classKey_eq]
  rfl

/-- The class of a module is in the module. -/
theorem nodes_classComponent_subset : cls.nodes ⊆ m.nodes := by
  obtain ⟨c, hc, hbody⟩ := Option.bind_eq_some_iff.mp hcls
  have hroot : c.root = cls := by
    obtain ⟨name, kind, body⟩ := c
    cases body <;> cases hbody
    rfl
  intro n hn
  exact Node.mem_nodesOf_of_mem_nodes (hroot ▸ root_mem_of_component? hc) hn

/-- **The changes of a key of a class** are the calls that write it, less those where the walk does
not look, and besides those that spread a write. -/
theorem class_updates (hm : m.Spelled) (hv : v ∈ classVariables m locate) :
    ∃ kept, Parted v.updates kept ((spreadWrites v.name cls).map fun n => locate n.place) ∧
      Parted ((cls.nodes.filter (Usage.writesKey v.name)).map fun n => locate n.place) kept
        ((hiddenWrites v.name cls).map fun n => locate n.place) := by
  obtain ⟨entry, rfl⟩ := exists_entry_of_mem_classVariables hv hcls
  have hsubset := nodes_classComponent_subset hcls
  have hnodes : Node.nodesOf [cls] = cls.nodes := by
    rw [Node.nodesOf_eq_flatMap, List.flatMap_singleton]
  have hparted := Usage.parted_traversed_node (.classKey entry.1) cls
  have htargets : Usage.CallsNotAssigned [cls] := by
    intro n hn
    exact hm.targets n (hsubset (hnodes ▸ hn))
  -- Of the nodes that are seen, the writes are kept and the spread ones are added; the writes that
  -- are not seen are missing.
  have hchange : (Usage.traversed (.classKey entry.1) [cls]).filter
        (Usage.isChange (.classKey entry.1))
      = (Usage.traversed (.classKey entry.1) [cls]).filter
        fun n => Usage.writesKey entry.1 n || Usage.spreadsKey entry.1 n := by
    refine List.filter_congr fun n hn => Usage.isChange_classKey entry.1 ?_
    exact hm.callees n (hsubset (hparted.mem_iff.mpr (Or.inl hn)))
  refine ⟨((Usage.traversed (.classKey entry.1) [cls]).filter (Usage.writesKey entry.1)).map
    fun n => locate n.place, ?_, ?_⟩
  · change Parted ((Usage.updates (Usage.findings (.classKey entry.1) [cls])).map locate) _ _
    rw [Usage.updates_findings _ htargets, List.map_map, hchange]
    exact (Parted.filter_or _ fun n _ => Usage.spreadsKey_of_writesKey).map _
  · exact (hparted.filter _).map _

end

/-- **Calls of `this.setState` in the class of a module are told apart by where they start**: two of
them that start at one location are the same call. It may be there twice
(`Syntax.Module.read?_keeps_parameters`). -/
def Syntax.Module.CallsApart (m : Module) (locate : Locator) : Prop :=
  ∀ cls ∈ m.classComponent?, ∀ n ∈ cls.nodes, ∀ n' ∈ cls.nodes,
    Usage.callsSetState n = true → Usage.callsSetState n' = true →
      locate n.place = locate n'.place → n = n'

/-- Calls none of which start at one location are told apart. -/
theorem Syntax.Module.CallsApart.of_nodup {m : Module} {locate : Locator}
    (h : ∀ cls ∈ m.classComponent?,
      ((cls.nodes.filter Usage.callsSetState).map fun n => locate n.place).Nodup) :
    m.CallsApart locate := by
  intro cls hcls n hn n' hn' hcall hcall' hplace
  have hmem : n ∈ cls.nodes.filter Usage.callsSetState := List.mem_filter.mpr ⟨hn, hcall⟩
  have hmem' : n' ∈ cls.nodes.filter Usage.callsSetState := List.mem_filter.mpr ⟨hn', hcall'⟩
  exact List.inj_on_of_nodup_map (h cls hcls) hmem hmem' hplace

/-- **A call can be read once and be there twice.** An arrow behind an item in parentheses, with a
line break in front of it, takes all items so far as its parameters, and they are kept as items
too. So it is too much to ask that no two calls start at one location. -/
theorem Syntax.Module.read?_keeps_parameters :
    ((Module.read? (.ofPath "C.jsx") "(x, a = this.setState(y), b\n=> z)".toList).map fun read =>
      (read.1.nodes.filter Usage.callsSetState).map (·.place)) = some [9, 9] := by
  decide +kernel

/-- A call that spreads a write is not taken for one that is overlooked. -/
theorem disjoint_spreadWrites_hiddenWrites {m : Module} {locate : Locator}
    (hapart : m.CallsApart locate) {cls : Node} (hcls : m.classComponent? = some cls)
    (key : String) :
    ((spreadWrites key cls).map fun n => locate n.place).Disjoint
      ((hiddenWrites key cls).map fun n => locate n.place) := by
  have hparted := Usage.parted_traversed_node (.classKey key) cls
  intro x hx hx'
  obtain ⟨n, hn, rfl⟩ := List.mem_map.mp hx
  obtain ⟨n', hn', hplace⟩ := List.mem_map.mp hx'
  obtain ⟨hseen, hspread⟩ := List.mem_filter.mp hn
  obtain ⟨hskipped, hwrites⟩ := List.mem_filter.mp hn'
  -- one is seen and one is not, but both are calls in the class
  have hcall : Usage.callsSetState n = true := by
    rw [Usage.spreadsKey, Bool.and_eq_true, Bool.and_eq_true] at hspread
    exact hspread.1.1
  have hcall' : Usage.callsSetState n' = true := by
    rw [Usage.writesKey, Bool.and_eq_true] at hwrites
    exact hwrites.1
  have hmem : n ∈ cls.nodes := hparted.mem_iff.mpr (Or.inl hseen)
  have hmem' : n' ∈ cls.nodes := hparted.mem_iff.mpr (Or.inr hskipped)
  obtain rfl : n' = n := hapart cls hcls n' hmem' n hmem hcall' hcall hplace
  rw [Usage.spreadsKey_of_writesKey hwrites] at hspread
  cases hspread

/-- **The changes of a key of a class are exact** if and only if no call that writes the key is
overlooked and none is taken for one, unless calls of the two kinds can be mistaken for each
other. -/
theorem class_updates_eq_iff {m : Module} {locate : Locator} (hm : m.Spelled) {cls : Node}
    (hcls : m.classComponent? = some cls) {v : StateVariable Location}
    (hv : v ∈ classVariables m locate)
    (hdisjoint : ((spreadWrites v.name cls).map fun n => locate n.place).Disjoint
      ((hiddenWrites v.name cls).map fun n => locate n.place)) :
    v.updates = ((cls.nodes.filter (Usage.writesKey v.name)).map fun n => locate n.place)
      ↔ spreadWrites v.name cls = [] ∧ hiddenWrites v.name cls = [] := by
  obtain ⟨kept, hrecorded, hwritten⟩ := class_updates hcls hm hv
  rw [hrecorded.all_eq_all_iff hwritten hdisjoint, List.map_eq_nil_iff, List.map_eq_nil_iff]

/-- **The record is exact if no call that writes a key is hidden in a type and none spreads what it
writes.** Where the calls stand does not matter. -/
theorem UsageExact.of_forall_eq_nil {m : Module} (hm : m.Spelled) (locate : Locator)
    (h : ∀ cls ∈ m.classComponent?, ∀ v ∈ classVariables m locate,
      spreadWrites v.name cls = [] ∧ hiddenWrites v.name cls = []) : UsageExact m locate where
  hookUpdates v hv := hook_updates hm hv
  hookPassed v hv := hook_passed hv
  classUpdates cls hcls v hv := by
    refine (class_updates_eq_iff hm hcls hv ?_).mpr (h cls hcls v hv)
    rw [(h cls hcls v hv).1]
    exact List.disjoint_nil_left _
  classPassed cls hcls v hv := class_passed hcls hv

/-- **What is recorded of the changes of state variables is exact if and only if no call that writes
a key is hidden in a type and none spreads what it writes.** What is recorded of their handing on is
always exact. That calls stand apart is needed only to see that nothing else makes it exact: a call
that is overlooked must not be made up for by one that is taken for it. -/
theorem usageExact_iff {m : Module} (hm : m.Spelled) (locate : Locator)
    (hapart : m.CallsApart locate) :
    UsageExact m locate ↔ ∀ cls ∈ m.classComponent?, ∀ v ∈ classVariables m locate,
      spreadWrites v.name cls = [] ∧ hiddenWrites v.name cls = [] := by
  refine ⟨fun h cls hcls v hv => ?_, UsageExact.of_forall_eq_nil hm locate⟩
  have hdisjoint := disjoint_spreadWrites_hiddenWrites hapart hcls v.name
  exact (class_updates_eq_iff hm hcls hv hdisjoint).mp (h.classUpdates cls hcls v hv)

/-- The object `{a: null}`. -/
def nullObject (place : Place) : Node :=
  ⟨.object, place, [⟨.keyed, place + 1,
    [.leaf (.word "a") (place + 1), .leaf .null (place + 4)]⟩]⟩

/-- A call of `this.setState`. -/
def setStateCall (place : Place) (argument : Node) : Node :=
  ⟨.call, place, [⟨.member, place, [.leaf .this place, .leaf (.word "setState") (place + 5)]⟩,
    .list [argument], .list []]⟩

/-- The module of `class C extends Component { state = {a: null}; f() { e; } }`. -/
def methodOf (e : Node) : Module :=
  [⟨.declStmt, 1, [⟨.classDecl, 1, [.leaf (.binder "C") 7, ⟨.cls, 1,
    [.list [⟨.field, 29, [.leaf (.word "state") 29, nullObject 37, .absent]⟩,
      ⟨.method, 48, [.leaf (.word "f") 48,
        ⟨.fn, 49, [.list [], ⟨.body, 52, [⟨.exprStmt, 54, [e]⟩]⟩, .list [], .absent]⟩]⟩],
      .leaf (.name "Component") 17, .list [], .list [], .list []]⟩]⟩]⟩]

/-- The module with the statement `this.setState({a: null})`. -/
def plainWrite : Module := methodOf (setStateCall 54 ⟨.item, 68, [nullObject 68]⟩)

/-- A write is recorded at its place, and nothing else. -/
theorem usageExact_plainWrite :
    (classVariables plainWrite Location.ofPlaceOnly).map (·.updates) = [[⟨0, 0, 54⟩]] ∧
      UsageExact plainWrite Location.ofPlaceOnly := by
  have hspelled : plainWrite.Spelled := by
    refine ⟨by decide, by decide, ?_⟩
    change ∀ n ∈ plainWrite.nodes, n.form = .target → ∀ part ∈ n.parts, part.form ≠ .call
    decide
  have hapart : plainWrite.CallsApart Location.ofPlaceOnly := by
    refine Syntax.Module.CallsApart.of_nodup ?_
    rintro cls ⟨⟩
    decide
  refine ⟨by decide, (usageExact_iff hspelled Location.ofPlaceOnly hapart).mpr ?_⟩
  have hnone : ∀ cls ∈ plainWrite.classComponent?,
      ∀ v ∈ classVariables plainWrite Location.ofPlaceOnly,
        (spreadWrites v.name cls).isEmpty = true ∧ (hiddenWrites v.name cls).isEmpty = true := by
    rintro cls ⟨⟩
    decide
  exact fun cls hcls v hv => (hnone cls hcls v hv).imp List.isEmpty_iff.mp List.isEmpty_iff.mp

/-- The module with the statement `this.setState(...{a: null})`. -/
def spreadWrite : Module := methodOf (setStateCall 54 ⟨.spread, 68, [nullObject 71]⟩)

/-- The module with the statement `(this as {[this.setState({a: null})]: any}).state.a`. -/
def hiddenWrite : Module :=
  methodOf ⟨.member, 54, [⟨.member, 54, [⟨.paren, 54, [⟨.asType, 55, [.leaf .this 55,
    ⟨.objectType, 63, [⟨.propertySig false, 64,
      [⟨.computed, 64, [setStateCall 65 ⟨.item, 79, [nullObject 79]⟩]⟩,
        ⟨.keyword "any", 92, []⟩]⟩]⟩]⟩]⟩,
    .leaf (.word "state") 98]⟩, .leaf (.word "a") 104]⟩

/-- A spread object is recorded as a write, and a write in the type of a member of the state is
not. -/
theorem not_usageExact_spreadWrite :
    (classVariables spreadWrite Location.ofPlaceOnly).map (·.updates) = [[⟨0, 0, 54⟩]] ∧
      (spreadWrite.nodes.filter (Usage.writesKey "a")).map (·.place) = [] ∧
      (classVariables hiddenWrite Location.ofPlaceOnly).map (·.updates) = [[]] ∧
      (hiddenWrite.nodes.filter (Usage.writesKey "a")).map (·.place) = [65] ∧
      ¬ UsageExact spreadWrite Location.ofPlaceOnly ∧
      ¬ UsageExact hiddenWrite Location.ofPlaceOnly := by
  have hspread : ¬ ∀ cls ∈ spreadWrite.classComponent?,
      ∀ v ∈ classVariables spreadWrite Location.ofPlaceOnly,
        v.updates = (cls.nodes.filter (Usage.writesKey v.name)).map
          fun n => Location.ofPlaceOnly n.place := by
    intro h
    exact absurd (h _ rfl) (by decide)
  have hhidden : ¬ ∀ cls ∈ hiddenWrite.classComponent?,
      ∀ v ∈ classVariables hiddenWrite Location.ofPlaceOnly,
        v.updates = (cls.nodes.filter (Usage.writesKey v.name)).map
          fun n => Location.ofPlaceOnly n.place := by
    intro h
    exact absurd (h _ rfl) (by decide)
  exact ⟨by decide, by decide, by decide, by decide, fun h => hspread h.classUpdates,
    fun h => hhidden h.classUpdates⟩

end JsxWidgets
