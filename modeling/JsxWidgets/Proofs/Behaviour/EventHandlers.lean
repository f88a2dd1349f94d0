import JsxWidgets.Proofs.Behaviour.VariableUpdates
import JsxWidgets.Proofs.Expression.Paths
import JsxWidgets.Proofs.Markup.WellMarked
import JsxWidgets.Proofs.Structure.Components

/-!
# The ledger of event handlers

An attribute with an expression that is named for an event is a handled event. The analysis keeps a
ledger of them: a record of each, and a report of each whose function is not in the file. Both are
written in one go, so they stay in step (`HandlerLedger`), however the elements are nested.

What the expression of a handler refers to is a relation (`Handler.Refers`): a function that is
written there, a variable, a method of the object, or something else. It leaves no choice, and
`Handler.resolve` decides it (`Handler.refers_iff`).

In a module with its markup in place, as every module has that is read, an attribute is in one
opening tag. So there are as many records as there are nodes that are such attributes
(`Module.WellMarked.perm_handlerAttributes`).
-/

namespace JsxWidgets

open Syntax Expression

namespace Handler

/-! ### What a handler refers to -/

/-- **The method of the object that an expression refers to**, as `this.name` or bound to
something as in `this.name.bind(this)`. -/
inductive IsMethod (e : Node) (name : String) : Prop where
  /-- The method itself, and not a member of something in the object. -/
  | plain (hpath : path? e = some ("this." ++ name)) (hname : '.' ∉ name.toList)
  /-- The method bound to something. -/
  | bound {place : Place} {callee : Node} {rest : List Node}
    (hcall : e.unwrap = ⟨.call, place, callee :: rest⟩)
    (hpath : path? callee = some ("this." ++ (name ++ ".bind")))

/-- **What the expression of a handler refers to**: the name of the handler, and its body if that is
in the file. -/
inductive Refers (index : FunctionIndex) (event : String) (e : Node) :
    String → Option FunctionBody → Prop where
  /-- A function that is written there. -/
  | written {body : FunctionBody} (hbody : FunctionBody.ofExpr? e = some body) :
    Refers index event e ("inline:" ++ event) (some body)
  /-- A variable. -/
  | named {name : String} (hname : e.unwrap.form = .name name) :
    Refers index event e name (index.get? name)
  /-- A method of the object. -/
  | method {name : String} (hnot : ∀ t, e.unwrap.form ≠ .name t) (hmethod : IsMethod e name) :
    Refers index event e name (index.get? name)
  /-- Something else, which has no body in the file. -/
  | other (hbody : FunctionBody.ofExpr? e = none) (hnot : ∀ t, e.unwrap.form ≠ .name t)
    (hmethod : ∀ name, ¬ IsMethod e name) : Refers index event e (summary e.unwrap) none

/-- The name of a method of the class is found exactly if the expression is such a method. -/
theorem methodName?_eq_some_iff {e : Node} {name : String} :
    methodName? e = some name ↔ IsMethod e name := by
  constructor
  · intro h
    unfold methodName? at h
    split at h
    next hform =>
      -- a call: what is called has to be bound
      obtain ⟨bound, hbound, hend⟩ := Option.bind_eq_some_iff.mp h
      obtain ⟨path, hpath, hstart⟩ := Option.bind_eq_some_iff.mp hbound
      obtain ⟨place, callee, rest, hcall, hcallee⟩ := calleePath?_eq_some_iff.mp hpath
      rw [Text.dropStart?_eq_some_iff.mp hstart, Text.dropEnd?_eq_some_iff.mp hend] at hcallee
      exact .bound hcall hcallee
    next =>
      -- anything else: a path without a further point
      obtain ⟨hdropped, hpoint⟩ := Option.filter_eq_some_iff.mp h
      obtain ⟨path, hpath, hstart⟩ := Option.bind_eq_some_iff.mp hdropped
      rw [Text.dropStart?_eq_some_iff.mp hstart] at hpath
      refine .plain hpath fun hmem => ?_
      rw [Text.contains_point.mpr hmem] at hpoint
      cases hpoint
  · rintro (⟨hpath, hname⟩ | ⟨hcall, hpath⟩)
    -- Only a name, the current object and a member have a path.
    · have hform : e.unwrap.form ≠ .call := by
        intro hform
        rcases path?_cases hpath with h | ⟨h, -⟩ | ⟨_, _, _, _, _, h, -⟩ <;> rw [h] at hform <;>
          cases hform
      have hpoint : Text.contains "." name = false :=
        Bool.eq_false_iff.mpr fun h => hname (Text.contains_point.mp h)
      unfold methodName?
      split
      next h => exact absurd h hform
      next =>
        rw [hpath, Option.bind_some, Text.dropStart?_eq_some_iff.mpr rfl, Option.filter_some,
          hpoint]
        rfl
    · rw [methodName?, hcall, calleePath?, hpath]
      dsimp only
      rw [Option.bind_some, Text.dropStart?_eq_some_iff.mpr rfl, Option.bind_some,
        Text.dropEnd?_eq_some_iff.mpr rfl]

/-- A function that is written somewhere is an arrow or a function expression. -/
theorem form_of_ofExpr? {e : Node} {body : FunctionBody}
    (h : FunctionBody.ofExpr? e = some body) :
    e.unwrap.form = .arrow ∨ e.unwrap.form = .functionExpr := by
  unfold FunctionBody.ofExpr? at h
  split at h
  next harrow => exact Or.inl (congrArg Node.form harrow)
  next harrow => exact Or.inl (congrArg Node.form harrow)
  next hfunction => exact Or.inr (congrArg Node.form hfunction)
  next => cases h

/-- A variable is no function itself. -/
theorem ofExpr?_eq_none_of_name {e : Node} {name : String} (h : e.unwrap.form = .name name) :
    FunctionBody.ofExpr? e = none := by
  refine Option.eq_none_iff_forall_ne_some.mpr fun body hbody => ?_
  rcases form_of_ofExpr? hbody with hform | hform <;> rw [hform] at h <;> cases h

/-- Nor is a method. -/
theorem IsMethod.ofExpr?_eq_none {e : Node} {name : String} (h : IsMethod e name) :
    FunctionBody.ofExpr? e = none := by
  refine Option.eq_none_iff_forall_ne_some.mpr fun body hbody => ?_
  rcases h with ⟨hpath, -⟩ | ⟨hcall, -⟩
  · rcases form_of_ofExpr? hbody with hform | hform <;>
      rcases path?_cases hpath with h | ⟨h, -⟩ | ⟨_, _, _, _, _, h, -⟩ <;> rw [h] at hform <;>
        cases hform
  · rcases form_of_ofExpr? hbody with hform | hform <;> rw [hcall] at hform <;> cases hform

/-- **The reference of a handler is what it is resolved to.** -/
theorem refers_iff {index : FunctionIndex} {event : String} {e : Node} {name : String}
    {body? : Option FunctionBody} :
    Refers index event e name body? ↔ resolve index event e = (name, body?) := by
  constructor
  · -- No two of the cases overlap, so the tests in front of the one that applies fail.
    rintro (hbody | hname | ⟨hnot, hmethod⟩ | ⟨hbody, hnot, hmethod⟩)
    · rw [resolve, hbody]
    · rw [resolve, ofExpr?_eq_none_of_name hname, hname]
    · rw [resolve, hmethod.ofExpr?_eq_none]
      dsimp only
      split
      next t hname => exact absurd hname (hnot t)
      next => rw [methodName?_eq_some_iff.mpr hmethod]
    · have hnone : methodName? e = none :=
        Option.eq_none_iff_forall_ne_some.mpr fun name h =>
          hmethod name (methodName?_eq_some_iff.mp h)
      rw [resolve, hbody]
      dsimp only
      split
      next t hname => exact absurd hname (hnot t)
      next => rw [hnone]
  · intro h
    unfold resolve at h
    split at h
    next body hbody =>
      cases h
      exact .written hbody
    next hbody =>
      split at h
      next t hname =>
        cases h
        exact .named hname
      next hnot =>
        split at h
        next m hmethod =>
          cases h
          exact .method hnot (methodName?_eq_some_iff.mp hmethod)
        next hnone =>
          cases h
          refine .other hbody hnot fun name hmethod => ?_
          rw [methodName?_eq_some_iff.mpr hmethod] at hnone
          cases hnone

/-! ### What a scan may find -/

/-- A state variable that a scan finds is one of those that it knows. -/
def Finding.IsKnown (vars : Variables) : Finding → Prop
  | .uses name => ∃ v ∈ vars, v.1 = name
  | .acts _ => True

/-- A call uses only state variables that are known. -/
theorem isKnown_calleeFindings (vars : Variables) (text : String) :
    ∀ x ∈ calleeFindings vars text, x.IsKnown vars := by
  unfold calleeFindings
  dsimp only
  split
  next name setter hfind =>
    have hknown : (Finding.uses name).IsKnown vars := ⟨_, List.mem_of_find?_eq_some hfind, rfl⟩
    split
    · simp [Finding.IsKnown]
    · simpa [Finding.IsKnown] using hknown
  next => repeat' split <;> simp [Finding.IsKnown]

/-- So does a name. -/
theorem isKnown_nameFindings (vars : Variables) (t : String) :
    ∀ x ∈ nameFindings vars t, x.IsKnown vars := by
  unfold nameFindings
  split
  next name setter hfind =>
    have hknown : (Finding.uses name).IsKnown vars := ⟨_, List.mem_of_find?_eq_some hfind, rfl⟩
    refine List.forall_mem_cons.mpr ⟨hknown, ?_⟩
    split <;> simp [Finding.IsKnown]
  next => exact List.forall_mem_nil _

/-- **Every node uses only state variables that are known.** -/
theorem isKnown_note (vars : Variables) (inArguments : Bool) (n : Node) :
    ∀ x ∈ note vars inArguments n, x.IsKnown vars := by
  unfold note
  -- a call, a member and a name each look the variable up before they name it
  split
  case h_1 =>
    split
    · exact List.forall_mem_nil _
    · unfold callFindings
      split
      case h_3 => exact isKnown_calleeFindings vars _
      all_goals exact List.forall_mem_nil _
  case h_2 | h_3 =>
    split
    next key hkey =>
      split
      next hany => simpa [Finding.IsKnown] using hany
      next => exact List.forall_mem_nil _
    next => exact List.forall_mem_nil _
  case h_4 =>
    split
    next t ht => exact isKnown_nameFindings vars t
    next => exact List.forall_mem_nil _

/-- **A scan gives no name twice, and only names that it knows, and no action twice.** -/
theorem scan_wellFormed (vars : Variables) (body : FunctionBody) :
    ((scan vars body).1.Nodup ∧ ∀ name ∈ (scan vars body).1, ∃ v ∈ vars, v.1 = name)
      ∧ (scan vars body).2.Nodup := by
  refine ⟨⟨Text.nodup_firstOccurrences _, fun name hname => ?_⟩, Text.nodup_firstOccurrences _⟩
  obtain ⟨x, hx, hread⟩ := List.mem_filterMap.mp (Text.mem_firstOccurrences.mp hname)
  obtain ⟨root, -, hrun⟩ := List.mem_flatMap.mp hx
  have hknown : x.IsKnown vars := Survey.forall_mem_run (isKnown_note vars) false root x hrun
  cases x with
  | uses name' =>
    cases hread
    exact hknown
  | acts action => cases hread

end Handler

/-! ### Handled events -/

/-- An attribute with an expression in braces that is named for an event. -/
structure HandledEvent where
  /-- The tag of the element. -/
  tag : TagName
  /-- The attribute. -/
  attr : Node
  /-- The name of the attribute. -/
  name : String
  /-- The expression. -/
  value : Node

/-- The event that an attribute of a tag handles. Braces without an expression handle nothing. -/
def handledEvent? (tag : TagName) (attr : Node) : Option HandledEvent :=
  match attr with
  | ⟨.attr name, _, [⟨.container, _, [value]⟩]⟩ =>
    if value.form ≠ .absent ∧ Naming.isEventHandler name.text then
      some ⟨tag, attr, name.text, value⟩
    else none
  | _ => none

/-- The events that an opening tag handles. -/
def handledEventsIn (n : Node) : List HandledEvent :=
  match n.form with
  | .opening tag => n.attributes.filterMap (handledEvent? tag)
  | _ => []

/-- **The events that a module handles**, opening tag by opening tag. -/
def Syntax.Module.handledEvents (m : Module) : List HandledEvent := m.nodes.flatMap handledEventsIn

/-- The site of a handled event. -/
def HandledEvent.site (index : FunctionIndex) (w : HandledEvent) : Handler.Site :=
  let (name, body) := Handler.resolve index w.name w.value
  ⟨w.tag.text, w.name, name, body, w.attr.place⟩

/-- An attribute handles an event if its name is that of a handler and its value an expression. -/
theorem handledEvent?_eq_some_iff {tag : TagName} {attr : Node} {w : HandledEvent} :
    handledEvent? tag attr = some w ↔ ∃ name e, attr.form = .attr name
      ∧ attr.attributeValue = .expression e ∧ Naming.isEventHandler name.text = true
      ∧ w = ⟨tag, attr, name.text, e⟩ := by
  constructor
  · intro h
    unfold handledEvent? at h
    split at h
    next name p q value =>
      obtain ⟨⟨hpresent, hevent⟩, heq⟩ := (Option.ite_none_right_eq_some ..).mp h
      refine ⟨name, value, rfl, ?_, hevent, (Option.some.inj heq).symm⟩
      exact Usage.attributeValue_eq_expression_iff.mpr ⟨hpresent, name, p, q, rfl⟩
    next => cases h
  · rintro ⟨name, e, hform, hvalue, hevent, rfl⟩
    obtain ⟨hpresent, name', p, q, rfl⟩ := Usage.attributeValue_eq_expression_iff.mp hvalue
    -- the attribute has one name, so the two readings of it agree
    cases hform
    exact if_pos ⟨hpresent, hevent⟩

/-- The analysis of an attribute is that of the event that it handles. -/
theorem site?_eq (index : FunctionIndex) (tag : TagName) (attr : Node) :
    Handler.site? index tag attr
      = (handledEvent? tag attr).map (HandledEvent.site index) := by
  cases hw : handledEvent? tag attr with
  | some w =>
    obtain ⟨name, e, hform, hvalue, hevent, rfl⟩ := handledEvent?_eq_some_iff.mp hw
    rw [Handler.site?, hform, hvalue]
    exact if_pos hevent
  | none =>
    unfold Handler.site?
    split
    next name e hform hvalue =>
      -- an attribute that is no event cannot pass the test, else it would be one
      refine if_neg fun hevent => ?_
      have hsome : handledEvent? tag attr = some ⟨tag, attr, name.text, e⟩ :=
        handledEvent?_eq_some_iff.mpr ⟨name, e, hform, hvalue, hevent, rfl⟩
      rw [hw] at hsome
      cases hsome
    next => rfl

theorem handledEventsIn_of_opening {n : Node} {tag : TagName} (h : n.form = .opening tag) :
    handledEventsIn n = n.attributes.filterMap (handledEvent? tag) := by
  rw [handledEventsIn, h]

theorem handledEventsIn_of_form {n : Node} (h : ∀ tag, n.form ≠ .opening tag) :
    handledEventsIn n = [] := by
  unfold handledEventsIn
  split
  next tag hform => exact absurd hform (h tag)
  next => rfl

/-- The handlers in an opening tag are those of its events. -/
theorem sites_eq (index : FunctionIndex) (n : Node) :
    Handler.sites index n = (handledEventsIn n).map (HandledEvent.site index) := by
  by_cases hopening : ∃ tag, n.form = .opening tag
  · obtain ⟨tag, hform⟩ := hopening
    rw [handledEventsIn_of_opening hform, Handler.sites, hform, List.map_filterMap]
    exact List.filterMap_congr fun attr _ => site?_eq index tag attr
  · rw [handledEventsIn_of_form (not_exists.mp hopening)]
    unfold Handler.sites
    split
    next tag hform => exact absurd ⟨tag, hform⟩ hopening
    next => rfl

/-- The attributes that handle the events of a module. -/
theorem map_attr_handledEvents (m : Module) :
    m.handledEvents.map (·.attr) = m.handlerAttributes := by
  -- Attribute by attribute, the event keeps what is a handler and drops the rest.
  have hattr : ∀ tag attr,
      (handledEvent? tag attr).map (·.attr) = Option.guard isHandler attr := by
    intro tag attr
    cases hw : handledEvent? tag attr with
    | some w =>
      obtain ⟨name, e, hform, hvalue, hevent, rfl⟩ := handledEvent?_eq_some_iff.mp hw
      have hhandler : isHandler attr = true := by rw [isHandler.eq_def, hform, hvalue]; exact hevent
      exact (if_pos hhandler).symm
    | none =>
      refine (if_neg fun hhandler => ?_).symm
      unfold isHandler at hhandler
      split at hhandler
      next name e hform hvalue =>
        have hsome : handledEvent? tag attr = some ⟨tag, attr, name.text, e⟩ :=
          handledEvent?_eq_some_iff.mpr ⟨name, e, hform, hvalue, hhandler, rfl⟩
        rw [hw] at hsome
        cases hsome
      next => cases hhandler
  rw [Module.handledEvents, Module.handlerAttributes, List.map_flatMap]
  refine List.flatMap_congr fun n _ => ?_
  -- Both walks ask at opening tags only.
  by_cases hopening : ∃ tag, n.form = .opening tag
  · obtain ⟨tag, hform⟩ := hopening
    rw [handledEventsIn_of_opening hform, handlersIn, hform, List.map_filterMap,
      List.filterMap_congr fun attr _ => hattr tag attr]
    exact congrFun List.filterMap_eq_filter n.attributes
  · rw [handledEventsIn_of_form (not_exists.mp hopening),
      handlersIn_of_form (not_exists.mp hopening)]
    rfl

/-! ### Every attribute is in one opening tag -/

/-- Nodes whose opening tags hold just the attributes among them that handle events. -/
def Balanced (nodes : List Node) : Prop :=
  (nodes.flatMap handlersIn).Perm (nodes.filter isHandler)

theorem Balanced.append {nodes nodes' : List Node} (h : Balanced nodes) (h' : Balanced nodes') :
    Balanced (nodes ++ nodes') := by
  rw [Balanced, List.flatMap_append, List.filter_append]
  exact List.Perm.append h h'

/-- Several trees are balanced if each of them is. -/
theorem balanced_nodesOf {ns : List Node} (h : ∀ n ∈ ns, Balanced n.nodes) :
    Balanced (Node.nodesOf ns) := by
  induction ns with
  | nil => exact List.Perm.nil
  | cons n ns ih =>
    rw [Node.nodesOf]
    exact (h n List.mem_cons_self).append (ih fun k hk => h k (List.mem_cons_of_mem n hk))

theorem isHandler_of_form {n : Node} (h : ∀ name, n.form ≠ .attr name) : isHandler n = false := by
  unfold isHandler
  split
  next name _ hform _ => exact absurd hform (h name)
  next => rfl

/-- A node that neither holds attributes nor is one adds nothing. -/
theorem Balanced.cons {n : Node} {nodes : List Node} (htag : handlersIn n = [])
    (hattr : isHandler n = false) (h : Balanced nodes) : Balanced (n :: nodes) := by
  rw [Balanced, List.flatMap_cons, htag, List.filter_cons_of_neg (Bool.eq_false_iff.mp hattr)]
  exact h

/-- A row of attributes, with the opening tag that they are in. -/
theorem perm_attributes {attributes : List Node}
    (hforms : ∀ a ∈ attributes, a.form.isAttribute = true)
    (hparts : ∀ a ∈ attributes, ∀ n ∈ a.parts, Balanced n.nodes) :
    (attributes.filter isHandler ++ (Node.nodesOf attributes).flatMap handlersIn).Perm
      ((Node.nodesOf attributes).filter isHandler) := by
  induction attributes with
  | nil => exact List.Perm.nil
  | cons a attributes ih =>
    have hrest := ih (fun b hb => hforms b (List.mem_cons_of_mem a hb))
      fun b hb => hparts b (List.mem_cons_of_mem a hb)
    have hbelow : Balanced (Node.nodesOf a.parts) :=
      balanced_nodesOf (hparts a List.mem_cons_self)
    have htag : handlersIn a = [] := by
      refine handlersIn_of_form fun tag hform => ?_
      have hattr := hforms a List.mem_cons_self
      rw [hform] at hattr
      cases hattr
    have hnodes : Node.nodesOf (a :: attributes)
        = a :: (Node.nodesOf a.parts ++ Node.nodesOf attributes) := by
      rw [Node.nodesOf, Node.nodes_eq, List.cons_append]
    rw [hnodes, ← List.singleton_append, ← List.singleton_append (x := a) (l := _ ++ _),
      List.filter_append, List.filter_append, List.flatMap_append, List.flatMap_singleton, htag,
      List.nil_append, List.append_assoc, List.flatMap_append, List.filter_append]
    -- The attribute itself stays in front; what is below it changes places with the other ones.
    refine List.Perm.append_left _ (List.Perm.trans ?_ (List.Perm.append hbelow hrest))
    rw [← List.append_assoc, ← List.append_assoc]
    exact List.perm_append_comm.append_right _

/-- An opening tag with its row of attributes. -/
theorem balanced_opening (tag : TagName) (opened : Place) (types : Node) {attributes : List Node}
    (hforms : ∀ a ∈ attributes, a.form.isAttribute = true)
    (hparts : ∀ a ∈ attributes, ∀ n ∈ a.parts, Balanced n.nodes) :
    Balanced (⟨.opening tag, opened, [.list attributes, types]⟩ ::
      .list attributes :: Node.nodesOf attributes) := by
  have hopening : handlersIn ⟨.opening tag, opened, [.list attributes, types]⟩
      = attributes.filter isHandler := rfl
  have hrow : handlersIn (.list attributes) = [] := rfl
  rw [Balanced, List.flatMap_cons, List.flatMap_cons, hopening, hrow, List.nil_append,
    List.filter_cons_of_neg (by exact Bool.false_ne_true),
    List.filter_cons_of_neg (by exact Bool.false_ne_true)]
  exact perm_attributes hforms hparts

theorem balanced_list {ns : List Node} (h : ∀ n ∈ ns, Balanced n.nodes) :
    Balanced (Node.list ns).nodes := by
  rw [Node.list, Node.nodes_mk]
  exact Balanced.cons rfl rfl (balanced_nodesOf h)

/-- **Where all markup is in its place**, every attribute that holds a handler stands in an opening
tag. -/
theorem Syntax.Node.WellMarked.balanced {n : Node} (h : n.WellMarked) : Balanced n.nodes := by
  induction h with
  | @plain form place parts hform _ ih =>
    rw [Node.nodes_mk]
    refine Balanced.cons (handlersIn_of_form ?_) (isHandler_of_form ?_) (balanced_nodesOf ih)
    · rintro tag rfl
      cases hform
    · rintro name rfl
      cases hform
  | @element tag place opened attributes children types closing _ hforms _ _ _ _ ihattributes
    ihchildren ihtypes ihclosing =>
    -- The element itself, its opening tag with the row of attributes, and all that is besides.
    have hnodes : Node.nodes ⟨.element, place,
          [⟨.opening tag, opened, [.list attributes, types]⟩, .list children, closing]⟩
        = ⟨.element, place,
          [⟨.opening tag, opened, [.list attributes, types]⟩, .list children, closing]⟩ ::
          ((⟨.opening tag, opened, [.list attributes, types]⟩ ::
            .list attributes :: Node.nodesOf attributes)
          ++ (types.nodes ++ ((Node.list children).nodes ++ closing.nodes))) := by
      simp [Node.nodesOf, Node.list]
    have hopening := balanced_opening tag opened types hforms ihattributes
    have hrest := ihtypes.append ((balanced_list ihchildren).append ihclosing)
    rw [hnodes]
    exact Balanced.cons rfl rfl (hopening.append hrest)

/-- **Every attribute that handles an event is in one opening tag.** -/
theorem Syntax.Module.WellMarked.perm_handlerAttributes {m : Module} (hm : m.WellMarked) :
    m.handlerAttributes.Perm (m.nodes.filter isHandler) :=
  balanced_nodesOf fun n hn => (hm n hn).balanced

/-! ### The ledger -/

section Ledger

variable {π : Type}

/-- **A record tells of a handled event**: its event, its element and its place; and the state
variables and actions are told once each, and the variables are among those that are known. -/
structure EventHandler.TellsOf (vars : List (StateVariable Place)) (locate : Place → π)
    (w : HandledEvent) (h : EventHandler π) : Prop where
  /-- The event is that of the attribute. -/
  event : h.eventType = Naming.eventOf w.name
  /-- The element is the one with the attribute. -/
  element : h.element = w.tag.text
  /-- The place is that of the attribute. -/
  location : h.location = locate w.attr.place
  /-- No state variable is told twice. -/
  uses : h.usesState.Nodup
  /-- There are no other variables than the known ones. -/
  known : ∀ name ∈ h.usesState, ∃ v ∈ vars, v.name = name
  /-- No action is told twice. -/
  actions : h.actions.Nodup

/-- What is said about a record whose handler is not found. -/
def EventHandler.notFound (w : HandledEvent) (h : EventHandler π) : Diagnostic π :=
  ⟨.unmappedConstruct, w.name ++ " handler `" ++ h.name ++ "` on <" ++ h.element
    ++ "> could not be resolved in this file", some h.location⟩

/-- **The ledger of handled events**: the records and the reports that are written for them, in
step. -/
inductive HandlerLedger (index : FunctionIndex) (vars : List (StateVariable Place))
    (locate : Place → π) :
    List HandledEvent → List (EventHandler π) → List (Diagnostic π) → Prop where
  /-- Nothing is written for no event. -/
  | nil : HandlerLedger index vars locate [] [] []
  /-- A handler whose function is found is recorded with what a scan of the body gives, and nothing
  is reported. -/
  | found {w : HandledEvent} {h : EventHandler π} {body : FunctionBody}
    {events : List HandledEvent} {records : List (EventHandler π)} {reports : List (Diagnostic π)}
    (htells : h.TellsOf vars locate w)
    (hrefers : Handler.Refers index w.name w.value h.name (some body))
    (hscan : (h.usesState, h.actions) = Handler.scan (Handler.namesOf vars) body)
    (hrest : HandlerLedger index vars locate events records reports) :
    HandlerLedger index vars locate (w :: events) (h :: records) reports
  /-- A handler whose function is not found is recorded with nothing in it, and there is one report
  of it. -/
  | missing {w : HandledEvent} {h : EventHandler π} {events : List HandledEvent}
    {records : List (EventHandler π)} {reports : List (Diagnostic π)}
    (htells : h.TellsOf vars locate w) (hrefers : Handler.Refers index w.name w.value h.name none)
    (huses : h.usesState = []) (hactions : h.actions = [])
    (hrest : HandlerLedger index vars locate events records reports) :
    HandlerLedger index vars locate (w :: events) (h :: records) (h.notFound w :: reports)

variable (index : FunctionIndex) (vars : List (StateVariable Place)) (locate : Place → π)

/-- One more event is written down in front. -/
theorem HandlerLedger.cons (w : HandledEvent) {events : List HandledEvent}
    {records : List (EventHandler π)} {reports : List (Diagnostic π)}
    (hrest : HandlerLedger index vars locate events records reports) :
    HandlerLedger index vars locate (w :: events)
      ((((w.site index).record (Handler.namesOf vars)).map locate) :: records)
      (((w.site index).diagnostic?.map (·.map locate)).toList ++ reports) := by
  obtain ⟨tag, attr, event, value⟩ := w
  have hrefers : Handler.Refers index event value (Handler.resolve index event value).1
      (Handler.resolve index event value).2 := Handler.refers_iff.mpr rfl
  rw [HandledEvent.site]
  -- the name and the body matter, not how they were found
  generalize Handler.resolve index event value = resolved at hrefers ⊢
  obtain ⟨name, body?⟩ := resolved
  -- a found body is scanned and recorded, a missing one is recorded bare and reported
  cases body? with
  | some body =>
    obtain ⟨⟨huses, hknown⟩, hactions⟩ :=
      Handler.scan_wellFormed (Handler.namesOf vars) body
    refine .found ⟨rfl, rfl, rfl, huses, fun name hname => ?_, hactions⟩ hrefers rfl hrest
    obtain ⟨v, hv, hname⟩ := hknown name hname
    obtain ⟨state, hstate, rfl⟩ := List.mem_map.mp hv
    exact ⟨state, hstate, hname⟩
  | none =>
    exact .missing ⟨rfl, rfl, rfl, List.nodup_nil, List.forall_mem_nil _, List.nodup_nil⟩ hrefers
      rfl rfl hrest

/-- Records and reports keep step with the events, one by one. -/
theorem handlerLedger_sites (events : List HandledEvent) :
    HandlerLedger index vars locate events
      (((events.map (HandledEvent.site index)).map (·.record (Handler.namesOf vars))).map
        (·.map locate))
      (((events.map (HandledEvent.site index)).filterMap (·.diagnostic?)).map (·.map locate)) := by
  induction events with
  | nil => exact .nil
  | cons w events ih =>
    -- a handled event adds at most one report, in front
    have hreports : ((((w :: events).map (HandledEvent.site index)).filterMap
          (·.diagnostic?)).map (·.map locate))
        = ((w.site index).diagnostic?.map (·.map locate)).toList
          ++ ((events.map (HandledEvent.site index)).filterMap (·.diagnostic?)).map
            (·.map locate) := by
      rw [List.map_cons, List.filterMap_cons]
      cases (w.site index).diagnostic? <;> rfl
    rw [hreports]
    exact HandlerLedger.cons index vars locate w ih

end Ledger

/-- **The records and reports of a module are the ledger of the events that it handles**, which are
the attributes of the module that handle events. -/
structure HandlersRecorded {π : Type} (m : Module) (vars : List (StateVariable Place))
    (locate : Place → π) (records : List (EventHandler π)) (reports : List (Diagnostic π)) :
    Prop where
  /-- Every attribute that handles an event is handled once, if it stands where attributes do. -/
  attributes : m.WellMarked →
    (m.handledEvents.map (·.attr)).Perm (m.nodes.filter isHandler)
  /-- There is a record of each, with a report if its function is not found. -/
  ledger : HandlerLedger (FunctionIndex.ofModule m) vars locate m.handledEvents records reports

/-- **The analysis of event handlers keeps the ledger of a module**, whatever state variables it is
given, and however places are told. -/
theorem handlersRecorded_analyzeHandlers {π : Type} (m : Module)
    (vars : List (StateVariable Place)) (locate : Place → π) :
    HandlersRecorded m vars locate ((analyzeHandlers m vars).1.map (·.map locate))
      ((analyzeHandlers m vars).2.map (·.map locate)) where
  attributes hm := by
    rw [map_attr_handledEvents]
    exact hm.perm_handlerAttributes
  ledger := by
    have hsites : m.nodes.flatMap (Handler.sites (FunctionIndex.ofModule m))
        = m.handledEvents.map (HandledEvent.site (FunctionIndex.ofModule m)) := by
      rw [Module.handledEvents, List.map_flatMap]
      exact List.flatMap_congr fun n _ => sites_eq _ n
    rw [analyzeHandlers, hsites]
    exact handlerLedger_sites _ vars locate m.handledEvents

end JsxWidgets
