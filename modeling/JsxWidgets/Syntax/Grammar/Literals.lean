import JsxWidgets.Syntax.Grammar.Functions
import JsxWidgets.Syntax.Grammar.Operators

/-!
# The grammar of literals

Templates, regular expressions, arrays and objects. Arrays and objects may turn out to be patterns,
so a comma in front of their closing bracket is noted.
-/

namespace JsxWidgets.Syntax

open Reading

/-! ### Templates and regular expressions -/

/-- A template behind its opening, as its pieces and its substitutions. -/
def templateParts (g : Rules) : Reading (List Quasi × List Node) := do
  let t ← peek
  iterate (([], []), t.next) fun ((quasis, holes), cursor) => do
    match readPiece cursor with
    | none => failWith .openTemplate t.place
    | some piece =>
      resumeAt piece.next
      let quasis := piece.quasi :: quasis
      -- the text goes on behind the brace that closes the hole, not behind a token
      if piece.opensHole then
        let e ← bracketed (g ()).expression
        let close ← peek
        if close.kind ≠ .punct "\x7d" then failAt "\x7d"
        return .more ((quasis, e :: holes), close.next)
      else return .done (quasis.reverse, holes.reverse)

/-- A template by itself; its escapes are well-formed. -/
def template (g : Rules) : Reading Node := do
  let place ← here
  let (quasis, holes) ← templateParts g
  if quasis.any (·.cooked.isNone) then failWith .malformedEscape place
  return ⟨.template quasis, place, holes⟩

/-- The flags that regular expressions have. -/
def regexFlags : List Char := ['d', 'g', 'i', 'm', 's', 'u', 'v', 'y']

/-- A regular expression; the slash that stands next is read again. -/
def regex : Reading Node := do
  let t ← peek
  match readRegex t.start with
  | .unreadable next =>
    resumeAt next
    throw ⟨.openRegex, t.place⟩
  | .closed pattern flags =>
    resumeAt flags.next
    -- the faults of the flags are noted; the expression stands
    for f in flags.faults do reportFault f
    if flags.chars.any fun f => !regexFlags.contains f then report .unknownRegexFlag t.place
    match flags.chars.find? fun f => regexFlags.contains f && 1 < flags.chars.count f with
    | some f => report (.duplicateRegexFlag f) t.place
    | none => pure ()
    return .leaf (.regex pattern (String.ofList flags.chars)) t.place

/-! ### Arrays -/

/-- Notes a comma in front of the closing bracket of what starts at a place. -/
def noteTrailingComma (place : Place) : Reading Unit :=
  modify fun s => { s with trailingCommas := (place, s.lastStart) :: s.trailingCommas }

/-- An argument of a call or an item of an array. -/
def item (g : Rules) : Reading Node := do
  let place ← here
  if ← eat "..." then return ⟨.spread, place, [← (g ()).assignment]⟩
  return ⟨.item, place, [← (g ()).assignment]⟩

/-- The items of an array behind its opening bracket; the array starts at the given place. -/
def arrayItems (g : Rules) (place : Place) : Reading (List Node) :=
  iterate [] fun acc => do
    let t ← peek
    if ← eat "]" then return .done acc.reverse
    if ← eat "," then return .more (.leaf .hole t.place :: acc)
    let n ← item g
    if ← at? "]" then return .more (n :: acc)
    expect ","
    if ← at? "]" then noteTrailingComma place
    return .more (n :: acc)

/-! ### Objects -/

/-- Whether a token can stand behind the key of a property where types may be stated. -/
def Token.followsKey (t : Token) (key : Node) : Bool :=
  match t.kind with
  | .word _ | .string _ | .number _ => true
  | .punct "\x7d" =>
    match key.form with
    | .word _ => true
    | _ => false
  | .punct p => ["(", "[", ":", ",", "?", "=", "*", "<"].contains p
  | _ => false

/-- A method of an object behind its key. -/
def objectMethod (g : Rules) (place : Place) (key : Node) (isAsync isGenerator : Bool) :
    Reading Node := do
  let fn ← asMember (functionRest g isAsync isGenerator (formalParameters g) key.place)
  return ⟨.method, place, [key, fn]⟩

/-- A getter of an object, behind the word that says so. -/
def objectGetter (g : Rules) (place : Place) : Reading Node := do
  let key ← propertyKey g
  let fn ← asMember (functionRest g false false (getterParameters g key.place) key.place)
  match fn.parts with
  | [_, code, _, result] => return ⟨.getter, place, [key, result, code]⟩
  | _ => fail

/-- A setter of an object, behind the word that says so. Of its parameters the first two are
kept. -/
def objectSetter (g : Rules) (place : Place) : Reading Node := do
  let key ← propertyKey g
  let fn ← asMember (functionRest g false false (setterParameters g key.place) key.place)
  match fn.parts with
  | [params, code, _, _] =>
    if params.parts.isEmpty then
      report .setterParameter key.place
      return ⟨.setter, place, [key, .list [.invalid 0], code]⟩
    return ⟨.setter, place, [key, .list (params.parts.take 2), code]⟩
  | _ => fail

/-- A property that starts with the given word, where something else than a value, parameters or the
end of the property follows. -/
def wordProperty (g : Rules) (place : Place) (word : String) : Reading Node := do
  match word with
  | "get" => objectGetter g place
  | "set" => objectSetter g place
  | "async" =>
    let isGenerator ← eat "*"
    let key ← propertyKey g
    objectMethod g place key true isGenerator
  | _ => fail

/-- A property of an object. -/
def property (g : Rules) : Reading Node := do
  let place ← here
  if ← eat "..." then return ⟨.spread, place, [← (g ()).assignment]⟩
  if ← eat "*" then
    let key ← propertyKey g
    return ← objectMethod g place key false true
  let isField ← eatAccessModifier
  let modifier ← lastPlace
  let key ← propertyKey g
  if (← hasTypes) ∧ !(← peek).followsKey key then
    report .unfinishedStatement (← spot)
    return ⟨.keyed, place, [key, .invalid place]⟩
  if ← eat ":" then return ⟨.keyed, place, [key, ← (g ()).assignment]⟩
  if ← atMethod then return ← objectMethod g place key false false
  match key.form with
  | .word name =>
    if ← eat "?" then report .optionalProperty (← lastPlace)
    -- a word alone, or with a default that only a pattern can keep
    if (← peek).kind.isPunctOf ["=", ",", "\x7d"] then
      if isReservedName name then report .reservedShorthand key.place
      if ← eat "=" then return ⟨.defaulted name, place, [← (g ()).assignment]⟩
      return .leaf (.shorthand name) place
    if isField then report .misplacedAsync modifier
    wordProperty g place name
  | _ => fail

/-- The properties of an object behind its opening brace; the object starts at the given place. -/
def objectProperties (g : Rules) (place : Place) : Reading (List Node) :=
  iterate [] fun acc => do
    if ← eat "\x7d" then return .done acc.reverse
    let n ← property g
    if ← at? "\x7d" then return .more (n :: acc)
    expect ","
    if ← at? "\x7d" then noteTrailingComma place
    return .more (n :: acc)

end JsxWidgets.Syntax
