import JsxWidgets.Syntax.Grammar.Basic

/-!
# The grammar of patterns and parameters

Patterns bind names to parts of a value; the parameters of functions are patterns with a type and a
default. What takes all that is left should come last and without a comma behind it, but a pattern
that breaks this rule is read all the same.
-/

namespace JsxWidgets.Syntax

open Reading

/-! ### Keys -/

/-- The key of a property in brackets, behind the opening bracket. A comma in it is a fault where
types may be stated, and fails elsewhere. -/
def computedKey (g : Rules) (place : Place) : Reading Node := do
  let inside ← here
  let first ← (g ()).assignment
  let e ←
    -- a sequence in a key is reported, but kept
    if (← hasTypes) ∧ (← at? ",") then do
      let all ← iterate [first] fun acc => do
        if ← eat "," then
          let e ← (g ()).assignment
          return .more (e :: acc)
        else return .done acc.reverse
      report .commaInKey inside
      pure ⟨.sequence, first.place, all⟩
    else pure first
  expect "]"
  return ⟨.computed, place, [e]⟩

/-- The key of a property. -/
def propertyKey (g : Rules) : Reading Node := do
  let t ← peek
  let leaf (form : Form) : Reading Node := do
    discard pass
    return .leaf form t.place
  match t.kind with
  | .word text => leaf (.word text)
  | .string v => leaf (.stringKey v)
  | .number v => leaf (.numberKey v)
  | .bigint _ => leaf .bigintKey
  | .punct "[" =>
    discard pass
    bracketed (computedKey g t.place)
  | _ => fail

/-! ### Patterns -/

/-- A pattern with its default, if there is one. -/
def bindingElement (g : Rules) : Reading Node := do
  let pat ← (g ()).pattern
  if ← eat "=" then
    let value ← bracketed (g ()).assignment
    if (← scope).ambient then report .defaultWithoutBody pat.place
    return ⟨.defaultPat, pat.place, [pat, value]⟩
  else return pat

/-- The items of an array pattern, behind the opening bracket. -/
def arrayPatternItems (g : Rules) : Reading (List Node) :=
  iterate ([], none) fun (acc, rest) => do
    if ← eat "]" then return .done acc.reverse
    if ← eat "," then return .more (.absent :: acc, rest)
    -- whatever follows a rest is reported, once for each element
    match rest with
    | some p => report .restNotLast p
    | none => pure ()
    let place ← here
    let isRest ← eat "..."
    let n ←
      if isRest then do
        let inner ← (g ()).pattern
        pure ⟨.rest, place, [inner, .absent]⟩
      else bindingElement g
    let rest := if isRest then some place else rest
    if ← at? "]" then return .more (n :: acc, rest)
    expect ","
    if isRest ∧ (← at? "]") then report .commaBehindRest (← lastPlace)
    return .more (n :: acc, rest)

/-- A property of an object pattern. -/
def objectPatternProperty (g : Rules) : Reading Node := do
  let place ← here
  if ← eat "..." then return ⟨.rest, place, [← (g ()).pattern, .absent]⟩
  let key ← propertyKey g
  if ← eat ":" then return ⟨.patKeyed, place, [key, ← bindingElement g]⟩
  match key.form with
  | .word name =>
    if ← eat "=" then return ⟨.patName name, place, [← bracketed (g ()).assignment]⟩
    if isReservedName name then report .reservedShorthand place
    return ⟨.patName name, place, [.absent]⟩
  | _ => fail

/-- The properties of an object pattern, behind the opening brace, and the place of a comma behind
the last one. -/
def objectPatternProperties (g : Rules) : Reading (List Node × Option Place) :=
  iterate ([], none) fun (acc, comma) => do
    if ← eat "\x7d" then return .done (acc.reverse, comma)
    let n ← objectPatternProperty g
    if ← at? "\x7d" then return .more (n :: acc, none)
    expect ","
    return .more (n :: acc, some (← lastPlace))

/-- Reports what is wrong with the properties that take all that is left. -/
def checkRests (properties : List Node) (comma : Option Place) : Reading Unit := do
  for n in properties.dropLast do
    if n.form = .rest then report .restNotLast n.place
  match properties.getLast? with
  | some ⟨.rest, place, inner :: _⟩ =>
    match inner.form, comma with
    | .bind _, some p => report .commaBehindRest p
    | .bind _, none => pure ()
    | _, _ => failWith .restWithoutName place
  | _ => pure ()

/-- A pattern without a type and without a default. -/
def patternRule (g : Rules) : Reading Node := do
  let t ← peek
  match t.kind with
  | .punct "[" =>
    discard pass
    return ⟨.arrayPat, t.place, [.list (← arrayPatternItems g), .absent]⟩
  | .punct "\x7b" =>
    discard pass
    let (properties, comma) ← objectPatternProperties g
    checkRests properties comma
    return ⟨.objectPat, t.place, [.list properties, .absent]⟩
  | _ =>
    let (place, text) ← bindingIdentifier
    return ⟨.bind text, place, [.absent]⟩

/-! ### Parameters -/

/-- A parameter with its type and its default. -/
def formalParameter (g : Rules) : Reading Node := do
  let place ← here
  let isField ← eatAccessModifier
  let pat ← bindingElement g
  let isOptional ← if ← hasTypes then eat "?" else pure false
  -- only what has no default yet can be marked
  let mayBeOptional : Bool :=
    match pat.form with
    | .bind _ | .arrayPat | .objectPat => true
    | _ => false
  if isOptional ∧ !mayBeOptional ∧ !(← scope).ambient then fail
  let type ← typeAnnotation g
  if pat.form = .defaultPat ∧ type.form ≠ .absent then report .typeBehindDefault pat.place
  let pat := if pat.form = .defaultPat then pat else pat.withType type
  let pat ←
    if ← eat "=" then do
      if isOptional ∧ mayBeOptional then report .optionalDefault pat.place
      let value ← (g ()).assignment
      pure ⟨.defaultPat, place, [pat, value]⟩
    else pure pat
  if isField then report .parameterField place
  return pat

/-- The parameter for all that is left, behind its points. -/
def restParameter (g : Rules) (place : Place) : Reading Node := do
  let inner ← (g ()).pattern
  let inner ←
    if ← eat "=" then do
      let value ← (g ()).assignment
      report .defaultedRest inner.place
      pure ⟨.defaultPat, place, [inner, value]⟩
    else pure inner
  let type ← typeAnnotation g
  if ← hasTypes then
    if ← eat "?" then report .optionalRest (← lastPlace)
  return ⟨.rest, place, [inner, type]⟩

/-- Parameters up to the closing parenthesis, which is not passed. The arguments read the one for
all that is left, behind its points, and any other, and whether that is a field too. -/
def parameterList (rest : Place → Reading Node) (parameter : Reading (Node × Bool)) :
    Reading (List (Node × Bool)) :=
  iterate ([], none) fun (acc, restAt) => do
    if (← at? ")") ∨ (← atEnd?) then return .done acc.reverse
    match restAt with
    | some p => report .parameterBehindRest p
    | none => pure ()
    let place ← here
    let isRest ← eat "..."
    let n ← if isRest then pure (← rest place, false) else parameter
    let restAt := if isRest then some place else restAt
    if ← at? ")" then return .more (n :: acc, restAt)
    expect ","
    if isRest ∧ (← at? ")") then report .commaBehindRest (← lastPlace)
    return .more (n :: acc, restAt)

/-- The parameters of a function up to the closing parenthesis, which is not passed. -/
def formalParameters (g : Rules) : Reading (List Node) := do
  let params ← parameterList (restParameter g) do return (← formalParameter g, false)
  return params.map (·.1)

end JsxWidgets.Syntax
