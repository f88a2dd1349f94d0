import JsxWidgets.Syntax.Grammar.Basic

/-!
# Expressions read again as patterns

Only what follows tells whether an expression is a value, the target of an assignment, or the
parameters of an arrow function. It is therefore read as an expression first and turned into a
pattern afterwards. A part that is no pattern is kept if it can be the target of an assignment, and
is a fault otherwise; only members of objects that are methods make the whole text unreadable.
-/

namespace JsxWidgets.Syntax

open Reading

/-! ### Targets -/

/-- Whether an expression is a target that a value can be assigned to. -/
def Node.isAssignable : Node → Bool
  | ⟨.name t, _, _⟩ => t ≠ "eval" && t ≠ "arguments"
  | ⟨.paren, _, [e]⟩ => isAssignable e
  | ⟨.member, _, ⟨.member, p, parts⟩ :: _⟩ => isAssignable ⟨.member, p, parts⟩
  | ⟨.member, _, o :: _⟩ => o.form ≠ .optMember && o.form ≠ .optCall
  | ⟨.superMember, _, _⟩ => true
  | ⟨.nonNull, _, [e]⟩ => isAssignable e
  | ⟨.assertion, _, [e, _]⟩ => isAssignable e
  | ⟨.asType, _, [e, _]⟩ => isAssignable e
  | ⟨.satisfies, _, [e, _]⟩ => isAssignable e
  | ⟨.instantiate, _, [e, _]⟩ => isAssignable e
  | _ => false

/-- Whether an expression is one of the variables that cannot be assigned to. -/
def Node.isRestricted (e : Node) : Bool := e.form = .name "eval" || e.form = .name "arguments"

/-- The forms that can stand as a target beside plain variables and patterns. -/
def Form.isTarget : Form → Bool
  | .member | .superMember | .optMember | .optCall | .paren | .nonNull | .assertion | .asType
  | .satisfies | .instantiate => true
  | _ => false

/-- The forms that are kept as parts of a pattern that is assigned to. -/
def Form.staysInPattern : Form → Bool
  | .member | .superMember | .optMember | .call | .construct | .string _ | .number _ | .bigint _
  | .bool _ | .null | .regex .. | .functionExpr | .classExpr | .paren | .template _ | .asType
  | .nonNull | .assertion | .satisfies => true
  | _ => false

/-- Whether a form is an assignment. -/
def Form.isAssign : Form → Bool
  | .assign _ => true
  | _ => false

/-- Whether a file with types lets a target pass that nothing can be assigned to. -/
def Node.passesAsTarget (deniesCalls : Bool) : Node → Bool
  | ⟨.paren, _, [e]⟩ => passesAsTarget deniesCalls e
  | ⟨form, _, _⟩ =>
    match form with
    | .string _ | .number _ | .bigint _ | .bool _ | .null | .regex .. | .binary _ => true
    | .call => !deniesCalls
    | _ => false

/-- Reports a target that nothing can be assigned to. -/
def checkTarget (e : Node) (deniesCalls : Bool) : Reading Unit := do
  if ← hasTypes then
    if e.isRestricted then report .restrictedTarget e.place
    else if !e.isAssignable ∧ !e.passesAsTarget deniesCalls then report .invalidTarget e.place
  else if !e.isAssignable then report .invalidTarget e.place

/-! ### Patterns -/

/-- What a pattern is for. -/
inductive PatternRole where
  /-- It introduces variables. -/
  | binding
  /-- It is assigned to. -/
  | target
  deriving DecidableEq, Repr, Inhabited

/-- What reading an expression again gives: nodes, and the faults in them; nothing if it cannot be
read so. -/
abbrev Reread (α : Type) := Option (α × List Fault)

/-- The node of something that is no pattern. -/
def Node.invalid (place : Place) : Node := .leaf .invalid place

mutual

/-- An expression as a pattern or as a part of one. The list tells which arrays and objects have a
comma in front of their closing bracket. -/
def Node.asPattern (commas : List (Place × Place)) (role : PatternRole) : Node → Reread Node
  | ⟨.invalid, p, _⟩ => some (.invalid p, [])
  | ⟨.assign .plain, p, [target, value]⟩ =>
    match target with
    | ⟨.binder t, q, _⟩ => some (⟨.defaultPat, p, [⟨.bind t, q, [.absent]⟩, value]⟩, [])
    | ⟨.target, _, [e]⟩ => some (⟨.defaultPat, p, [e, value]⟩, [])
    | pattern => some (⟨.defaultPat, p, [pattern, value]⟩, [])
  | ⟨.name t, p, _⟩ =>
    -- a binding of such a name is reported where it is bound
    let restricted := role = .target && (t = "eval" || t = "arguments")
    some (⟨.bind t, p, [.absent]⟩, if restricted then [⟨.invalidCombinedTarget, p⟩] else [])
  | ⟨.array, p, items⟩ =>
    (itemsAsPattern commas role (commas.lookup p) items).map fun (ns, faults) =>
      (⟨.arrayPat, p, [.list ns, .absent]⟩, faults)
  | ⟨.object, p, properties⟩ =>
    (propertiesAsPattern commas role (commas.lookup p) properties).map fun (ns, faults) =>
      (⟨.objectPat, p, [.list ns, .absent]⟩, faults)
  | ⟨form, p, parts⟩ =>
    -- an access may be assigned to, but it cannot be bound
    if role = .target && form.staysInPattern then
      let n : Node := ⟨form, p, parts⟩
      some (n, if n.isAssignable then [] else [⟨.invalidCombinedTarget, p⟩])
    else
      let fault : Fault := ⟨.invalidPattern, p⟩
      some (.invalid p, if role = .target && !form.isAssign then [fault, fault] else [fault])

/-- Items of an array as items of a pattern. Places left out at the end are dropped, and so is what
takes all that is left if it is not the last item. -/
def Node.itemsAsPattern (commas : List (Place × Place)) (role : PatternRole)
    (comma : Option Place) : List Node → Reread (List Node)
  | [] => some ([], [])
  | [⟨.spread, p, [e]⟩] =>
    (asPattern commas role e).map fun (n, faults) =>
      let assigned : List Fault := if e.form.isAssign then [⟨.defaultedRest, p⟩] else []
      let trailing : List Fault := comma.toList.map fun q => ⟨.commaBehindRest, q⟩
      ([⟨.rest, e.place, [n, .absent]⟩], assigned ++ trailing ++ faults)
  | ⟨.spread, p, _⟩ :: rest =>
    (itemsAsPattern commas role comma rest).map fun (ns, faults) =>
      (ns, ⟨.restNotLast, p⟩ :: faults)
  | ⟨.item, _, [e]⟩ :: rest =>
    match asPattern commas role e, itemsAsPattern commas role comma rest with
    | some (n, faults), some (ns, more) => some (n :: ns, faults ++ more)
    | _, _ => none
  | _ :: rest =>
    (itemsAsPattern commas role comma rest).map fun (ns, faults) =>
      -- holes at the end of the list leave no element
      (if rest.all (·.form = .hole) then [] else .absent :: ns, faults)

/-- Properties of an object as parts of a pattern. -/
def Node.propertiesAsPattern (commas : List (Place × Place)) (role : PatternRole)
    (comma : Option Place) : List Node → Reread (List Node)
  | [] => some ([], [])
  | property :: rest =>
    match propertyAsPattern commas role comma property,
      propertiesAsPattern commas role comma rest with
    | some (n, faults), some (ns, more) =>
      let early : List Fault :=
        if property.form = .spread && !rest.isEmpty then [⟨.restNotLast, property.place⟩] else []
      some (n :: ns, early ++ faults ++ more)
    | _, _ => none

/-- A property of an object as a part of a pattern. -/
def Node.propertyAsPattern (commas : List (Place × Place)) (role : PatternRole)
    (comma : Option Place) : Node → Reread Node
  | ⟨.keyed, p, [key, value]⟩ =>
    (asPattern commas role value).map fun (n, faults) => (⟨.patKeyed, p, [key, n]⟩, faults)
  | ⟨.shorthand t, p, _⟩ => some (⟨.patName t, p, [.absent]⟩, [])
  | ⟨.defaulted t, p, [value]⟩ => some (⟨.patName t, p, [value]⟩, [])
  | ⟨.spread, p, [e]⟩ =>
    let trailing : List Fault := comma.toList.map fun q => ⟨.commaBehindRest, q⟩
    match role with
    -- a binding rest is a name, while a target may be any pattern
    | .binding =>
      match e.form with
      | .name t =>
        some (⟨.rest, p, [⟨.bind t, e.place, [.absent]⟩, .absent]⟩, trailing)
      | _ => some (⟨.rest, p, [.invalid p, .absent]⟩, trailing ++ [⟨.restWithoutName, p⟩])
    | .target =>
      (asPattern commas role e).map fun (n, faults) =>
        let assigned : List Fault := if n.form = .defaultPat then [⟨.defaultedRest, p⟩] else []
        (⟨.rest, p, [n, .absent]⟩, trailing ++ faults ++ assigned)
  | _ => none

end

/-- Reads an expression again as a pattern. -/
def rereadAs (role : PatternRole) (e : Node) : Reading Node := do
  match e.asPattern (← get).trailingCommas role with
  | some (pattern, faults) =>
    for f in faults do reportFault f
    return pattern
  | none => failWith .invalidPattern e.place

/-- The variable of a loop over keys or values that is an expression. -/
def loopTarget (e : Node) : Reading Node := do
  match e.form with
  | .array | .object => rereadAs .target e
  | .invalid => return e
  | form =>
    checkTarget e true
    match form with
    | .name t => return ⟨.bind t, e.place, [.absent]⟩
    | _ => return e

/-- The target of a plain assignment. -/
def plainTarget (e : Node) : Reading Node := do
  match ← loopTarget e with
  | ⟨.bind t, p, _⟩ => return .leaf (.binder t) p
  | n =>
    match n.form with
    | .arrayPat | .objectPat | .invalid => return n
    | form =>
      if form.isTarget then return ⟨.target, n.place, [n]⟩ else failWith .invalidTarget n.place

/-- The target of an assignment combined with an operator. -/
def combinedTarget (e : Node) : Reading Node := do
  let typed ← hasTypes
  unless e.isAssignable do
    report (if typed then .invalidTarget else .invalidCombinedTarget) e.place
  if typed ∧ e.isRestricted then report .restrictedTarget e.place
  match e.form with
  | .name t => return .leaf (.binder t) e.place
  | form =>
    if form.isTarget then return ⟨.target, e.place, [e]⟩ else failWith .invalidTarget e.place

/-! ### Parameters -/

mutual

/-- The places where a pattern introduces one of the names that cannot be bound. -/
def Node.unbindable : Node → List Place
  | ⟨form, p, parts⟩ =>
    match form with
    | .bind t | .patName t => if t = "eval" || t = "arguments" then [p] else []
    | .arrayPat | .objectPat | .list | .rest | .defaultPat | .patKeyed => unbindableIn parts
    | _ => []

/-- The same for several nodes. -/
def Node.unbindableIn : List Node → List Place
  | [] => []
  | n :: ns => unbindable n ++ unbindableIn ns

end

/-- A parameter that an item in parentheses is, unless it is dropped: what takes all that is left
has to come last. -/
def parameterOf? (item : Node) : Reading (Option Node) := do
  match item with
  | ⟨.item, _, [e]⟩ => return some (← rereadAs .binding e)
  | n =>
    if n.form = .spread ∨ n.form = .rest then
      report .parameterBehindRest n.place
      return none
    return some n

/-- The parameter that the last item in parentheses is; a comma behind it stands at the given
place. -/
def lastParameterOf (item : Node) (comma : Option Place) : Reading Node := do
  let reportComma : Reading Unit := do
    match comma with
    | some p => report .commaBehindRest p
    | none => pure ()
  match item with
  | ⟨.item, _, [e]⟩ => rereadAs .binding e
  | ⟨.spread, p, [e]⟩ =>
    if e.form.isAssign then report .defaultedRest p
    reportComma
    return ⟨.rest, e.place, [← rereadAs .binding e, .absent]⟩
  | n =>
    if n.form = .rest then reportComma
    return n

/-- The parameters that the items in parentheses are, expressions and patterns. -/
def parametersOf (items : List Node) (comma : Option Place) : Reading (List Node) := do
  let front ← items.dropLast.filterMapM parameterOf?
  let params ←
    match items.getLast? with
    | some item => pure (front ++ [← lastParameterOf item comma])
    | none => pure []
  for p in Node.unbindableIn params do report .unbindableName p
  return params

end JsxWidgets.Syntax
