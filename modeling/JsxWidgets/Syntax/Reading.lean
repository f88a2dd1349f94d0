import JsxWidgets.Decimal.Shortest
import JsxWidgets.Syntax.Lexer

/-!
# Readings

A reading takes tokens off the front of a text and gives a node, or it fails with a fault. The state
is the token that stands next, the faults found so far, and the scope: what the enclosing functions,
loops and labels allow at this point. A failing reading leaves the state where it failed, since some
kinds of recovery go on from there; `attempt` is the reading that goes back.

## Faults of the token that stands next

A token is read before the grammar looks at it, and its own faults are due at that moment. They wait
in the token until something else is reported or the token is passed, so that a token that is read
again under other rules does not report what the first reading found.

## Characters that form no token

Such characters stand next like a token that nobody expects. Whoever reports a fault there reports
theirs first and passes them, and whoever fails there fails for their reason.
-/

namespace JsxWidgets.Syntax

/-- The language a file is written in. -/
structure Dialect where
  /-- Whether markup may stand for an expression. -/
  markup : Bool
  /-- Whether types may be stated. -/
  types : Bool
  deriving DecidableEq, Repr, Inhabited

/-- What the constructs around a point allow there. -/
structure Scope where
  /-- Inside a function. -/
  inFunction : Bool := false
  /-- Inside a function that may wait. -/
  inAsync : Bool := false
  /-- Inside a function that yields. -/
  inGenerator : Bool := false
  /-- Among the parameters of a function. -/
  inParameters : Bool := false
  /-- Inside something that a break leaves. -/
  mayBreak : Bool := false
  /-- Inside something that a continue goes on with. -/
  mayContinue : Bool := false
  /-- Inside a function that has a constructor to ask for. -/
  hasNewTarget : Bool := false
  /-- Inside a class. -/
  inClass : Bool := false
  /-- Inside a class that has a parent. -/
  hasParent : Bool := false
  /-- Inside a member that may ask its parent for members. -/
  allowsSuper : Bool := false
  /-- Inside the value of a field. -/
  inField : Bool := false
  /-- Inside the initializer of a class. -/
  inInitializer : Bool := false
  /-- Whether `in` is an operator here; at the start of a loop it is not. -/
  allowsIn : Bool := true
  /-- In the head of a loop. -/
  inLoopHead : Bool := false
  /-- In the head of a loop that waits. -/
  inAwaitHead : Bool := false
  /-- Inside a declaration of something that exists elsewhere. -/
  ambient : Bool := false
  /-- Inside a branch of a choice, on whatever level. -/
  inChoice : Bool := false
  /-- Inside the first branch of a choice, where a colon may belong to the choice. -/
  inConsequent : Bool := false
  /-- Inside the test of a conditional type, where no further condition may follow a bound. -/
  plainBounds : Bool := false
  /-- Inside something that is read without its faults. -/
  isSilent : Bool := false
  /-- The labels of the statements around. -/
  labels : List String := []
  deriving Inhabited

/-- The state of a reading. -/
structure ReadState where
  /-- The token that stands next. -/
  token : Token
  /-- The faults reported so far, last one first. -/
  faults : List Fault
  /-- The scope. -/
  scope : Scope
  /-- The language. -/
  dialect : Dialect
  /-- Where the token passed last starts. -/
  lastStart : Place := 1
  /-- Where it ends. -/
  lastEnd : Place := 1
  /-- Where the expression starts that may turn out to be an arrow function. -/
  arrowStart : Place := 0
  /-- The arrays and objects with a comma in front of their closing bracket: where they start, and
  where the comma stands. -/
  trailingCommas : List (Place × Place) := []
  deriving Inhabited

/-- The faults of a state with those of its token. -/
def ReadState.allFaults (s : ReadState) : List Fault := s.token.faults.reverse ++ s.faults

/-- The state behind the token that stands next; the one behind it is read in the given way. -/
def ReadState.advance (s : ReadState) (next : Cursor → Token) : ReadState :=
  { s with faults := s.allFaults, token := next s.token.next, lastStart := s.token.place,
           lastEnd := s.token.next.place }

/-- Readings: they may fail, and they leave a state in either case. -/
abbrev Reading := EStateM Fault ReadState

namespace Reading

/-- Reads something if that is possible, and goes back if it is not. -/
def attempt {α : Type} (p : Reading α) : Reading (Option α) := fun s =>
  match p s with
  | .ok a s' => .ok (some a) s'
  | .error _ _ => .ok none s

/-- Reads something; if that fails, stays where it failed and gives the reason. -/
def tolerate {α : Type} (p : Reading α) : Reading (Except Fault α) := fun s =>
  match p s with
  | .ok a s' => .ok (.ok a) s'
  | .error e s' => .ok (.error e) s'

/-- Looks whether something can be read, and goes back in any case. -/
def lookahead {α : Type} (p : Reading α) : Reading (Option α) := fun s =>
  match p s with
  | .ok a _ => .ok (some a) s
  | .error _ _ => .ok none s

/-- Reads something and forgets the faults in it, those of the token behind it included. -/
def silently {α : Type} (p : Reading α) : Reading α := fun s =>
  match p { s with scope := { s.scope with isSilent := true } } with
  | .ok a s' =>
    .ok a { s' with faults := s.allFaults, token := { s'.token with faults := [] },
                    scope := s.scope }
  | .error e s' => .error e { s' with scope := s.scope }

/-- Reads something in one way or, if that is not possible, in another. If neither is possible,
fails in the first way. -/
def orElse {α : Type} (p q : Reading α) : Reading α := fun s =>
  match p s with
  | .ok a s' => .ok a s'
  | .error e s' =>
    match q s with
    | .ok a s'' => .ok a s''
    | .error _ _ => .error e s'

/-- The token that stands next. -/
def peek : Reading Token := return (← get).token

/-- The place of the token that stands next; at the end of the text, where the last token ends. -/
def here : Reading Place := do
  let s ← get
  return if s.token.kind = .eof then s.lastEnd else s.token.place

/-- The place that a fault of the token that stands next is reported at; at the end of the text,
where the last token starts. -/
def spot : Reading Place := do
  let s ← get
  return if s.token.kind = .eof then s.lastStart else s.token.place

/-- Where the token passed last starts. -/
def lastPlace : Reading Place := return (← get).lastStart

/-- Reports a fault. Where faults are not wanted nothing is done, and characters that form no token
are not passed either. -/
def report (kind : FaultKind) (place : Place) : Reading Unit :=
  modify fun s =>
    if s.scope.isSilent then s
    else
      match s.token.kind with
      | .bad reason =>
        { s.advance Cursor.token with faults := ⟨kind, place⟩ :: reason :: s.allFaults }
      | _ =>
        { s with faults := ⟨kind, place⟩ :: s.allFaults, token := { s.token with faults := [] } }

/-- Reports a fault for which a reading has failed. -/
def reportFault (f : Fault) : Reading Unit := report f.kind f.place

/-- Fails for a reason. -/
def failWith {α : Type} (kind : FaultKind) (place : Place) : Reading α := do
  let s ← get
  match s.token.kind with
  | .bad reason =>
    set (s.advance Cursor.token)
    throw reason
  | _ => throw ⟨kind, place⟩

/-- Fails because something else should stand next. -/
def fail {α : Type} : Reading α := do failWith .missingExpression (← spot)

/-- Fails because the text ends. -/
def failEnd {α : Type} : Reading α := do
  let t ← peek
  throw ⟨.endOfText, t.place⟩

/-- Fails because a name should stand next. -/
def failName {α : Type} : Reading α := do failWith .missingName (← spot)

/-- Passes the token that stands next and reads the one behind it in the given way. -/
def passWith (next : Cursor → Token) : Reading Token := do
  let s ← get
  set (s.advance next)
  return s.token

/-- Passes a token of the language. -/
def pass : Reading Token := passWith Cursor.token

/-- Reads the token that stands next again in another way. -/
def reread (read : Cursor → Token) : Reading Unit :=
  modify fun s => { s with token := read s.token.start }

/-- Goes on at a cursor behind what has been read of the token that stands next. -/
def resumeAt (c : Cursor) : Reading Unit :=
  modify fun s =>
    { s with
      faults := s.allFaults, token := c.token, lastStart := s.token.place, lastEnd := c.place }

/-- Reads under a changed scope. -/
def inScope {α : Type} (change : Scope → Scope) (p : Reading α) : Reading α := fun s =>
  match p { s with scope := change s.scope } with
  | .ok a s' => .ok a { s' with scope := s.scope }
  | .error e s' => .error e { s' with scope := s.scope }

/-- The scope. -/
def scope : Reading Scope := return (← get).scope

/-- Whether the file may state types. -/
def hasTypes : Reading Bool := return (← get).dialect.types

/-- Whether the file may hold markup. -/
def hasMarkup : Reading Bool := return (← get).dialect.markup

/-- Whether the token that stands next is the given operator or bracket. -/
def at? (text : String) : Reading Bool := return (← peek).kind == .punct text

/-- Whether the token that stands next is the given word. -/
def atWord? (text : String) : Reading Bool := return (← peek).kind == .word text

/-- Whether the text ends here. -/
def atEnd? : Reading Bool := return (← peek).kind == .eof

/-- The token behind the one that stands next. -/
def second : Reading Token := return (← peek).next.token

/-- Whether a null character stands in front of the next token. One look at the token is lost to it:
the next one passes it over. -/
def eatNull : Reading Bool := do
  let s ← get
  if s.token.nulls = 0 then return false
  set { s with token := { s.token with nulls := s.token.nulls - 1 } }
  return true

/-- Passes an operator or bracket if it stands next. -/
def eat (text : String) : Reading Bool := do
  if ← at? text then
    discard pass
    return true
  return false

/-- Passes a word if it stands next. -/
def eatWord (text : String) : Reading Bool := do
  if ← atWord? text then
    discard pass
    return true
  return false

/-- How a token is named in a fault. -/
def shown (t : Token) : String :=
  let written := String.ofList (t.start.rest.take (t.start.rest.length - t.next.rest.length))
  match t.kind with
  | .word text => text
  | .hidden text => "#" ++ text
  | .punct text => text
  | .string v => "string literal (" ++ v ++ ", " ++ written ++ ")"
  | .number v => "numeric literal (" ++ v.positional ++ ", " ++ written ++ ")"
  | .bigint v => "bigint literal (" ++ toString v ++ ", " ++ written ++ ")"
  | .text v => "jsx text (" ++ v ++ ")"
  | .eof => "<eof>"
  | .bad _ => "<lexing error>"

/-- Fails because the given token should stand next. -/
def failAt {α : Type} (wanted : String) : Reading α := do
  failWith (.missingToken wanted (shown (← peek))) (← spot)

/-- Passes an operator or bracket, which has to stand next. -/
def expect (text : String) : Reading Unit := do
  unless ← eat text do failAt text

/-- Passes a word, which has to stand next. -/
def expectWord (text : String) : Reading Unit := do
  unless ← eatWord text do failAt text

/-- Whether a statement may end in front of the token that stands next without a semicolon. -/
def mayEnd : Reading Bool := do
  let t ← peek
  return t.newline || t.kind == .eof || t.kind == .punct "\x7d"

/-- Whether a statement may end here. -/
def atStatementEnd : Reading Bool := do
  if ← at? ";" then return true
  mayEnd

/-- Ends a statement, if it can end here. -/
def eatEnd : Reading Bool := do
  if ← eat ";" then return true
  mayEnd

/-- Ends a statement. -/
def expectEnd : Reading Unit := do
  unless ← eatEnd do failAt ";"

/-- What one round of a repetition gives: a new state, or the result. -/
inductive Round (σ α : Type) where
  /-- Goes on. -/
  | more (s : σ)
  /-- Stops. -/
  | done (a : α)

/-- Repeats a reading, at most the given number of times. -/
def repeatUpTo {σ α : Type} (step : σ → Reading (Round σ α)) : Nat → σ → Reading α
  | 0, _ => fail
  | fuel + 1, s => do
    match ← step s with
    | .more s => repeatUpTo step fuel s
    | .done a => return a

/-- Repeats a reading that passes at least one token in every round but the last. -/
def iterate {σ α : Type} (start : σ) (step : σ → Reading (Round σ α)) : Reading α := do
  let t ← peek
  repeatUpTo step (t.start.rest.length + 2) start

/-- Reads nodes until the given bracket, which is passed. -/
def untilClose (close : String) (p : Reading Node) : Reading (List Node) :=
  iterate [] fun acc => do
    if ← eat close then return .done acc.reverse
    let n ← p
    return .more (n :: acc)

/-- Reads statements until a closing brace, which is passed. The text may end in front of it, which
is a fault; so does a null character at the front of a statement, whatever stands behind it. -/
def untilBrace (p : Reading Node) : Reading (List Node) := do
  let nodes ← iterate [] fun acc => do
    let ends ← if ← atEnd? then pure true else eatNull
    if ends then
      report (.missingToken "\x7d" "<eof>") (← spot)
      return .done acc.reverse
    if ← at? "\x7d" then return .done acc.reverse
    let n ← p
    return .more (n :: acc)
  unless ← atEnd? do discard pass
  return nodes

/-- Reads parts separated by commas until the given bracket, which is passed. A comma may stand
behind the last part. -/
def commaList {α : Type} (close : String) (p : Reading α) : Reading (List α) :=
  iterate [] fun acc => do
    if ← eat close then return .done acc.reverse
    let n ← p
    if ← eat "," then return .more (n :: acc)
    expect close
    return .done (n :: acc).reverse

/-- Reads a node unless the given condition fails. -/
def optional (condition : Reading Bool) (p : Reading Node) : Reading Node := do
  if ← condition then p else return .absent

end Reading

end JsxWidgets.Syntax
