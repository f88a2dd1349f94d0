import JsxWidgets.Text.Case
import JsxWidgets.Text.Identifier
import JsxWidgets.Text.Segment

/-!
# Naming conventions

Hooks, event handlers, setters and property types are recognised by their names alone: a fixed word,
then an ASCII capital, then ASCII word characters to the very end. The same conventions give the
names that are made up: a setter from its variable, an event from its attribute, a file from a
component.
-/

namespace JsxWidgets.Naming

/-- A character of an ASCII name. -/
def isWordChar (c : Char) : Bool := Text.isAsciiAlphanumeric c || c = '_' || c = '$'

/-- Whether a name is a given word followed by a capitalised ASCII name. -/
def isCamelAfter (word name : String) : Bool :=
  match Text.dropFront? word.toList name.toList with
  | some (c :: rest) => 'A' ≤ c && c ≤ 'Z' && rest.all isWordChar
  | _ => false

/-- A hook is called `useFoo`. -/
def isHook (name : String) : Bool := isCamelAfter "use" name

/-- An event handler attribute is called `onFoo`. -/
def isEventHandler (name : String) : Bool := isCamelAfter "on" name

/-- A state setter is called `setFoo`. -/
def isSetter (name : String) : Bool := isCamelAfter "set" name

/-- A type of properties is called `Props` or `FooProps`. -/
def isPropsType (name : String) : Bool :=
  Text.endsWith "Props" name && name.toList.all isWordChar

/-- The setter that belongs to a state variable. -/
def setterOf (name : String) : String := "set" ++ Text.capitalize name

/-- The event that a handler attribute listens to. -/
def eventOf (handler : String) : String :=
  Text.uncapitalize ((Text.dropStart? "on" handler).getD handler)

/-- What precedes the next character of a name being put into snake case. -/
structure SnakeState where
  /-- The characters written so far, last one first. -/
  written : List Char
  /-- Whether the last character was a lower-case letter or a digit. -/
  afterLower : Bool

/-- Writes one character in snake case: separators become one underscore, and a capital behind a
lower-case letter or a digit starts a new word. -/
def SnakeState.step (s : SnakeState) (c : Char) : SnakeState :=
  if c = '.' ∨ c = '-' ∨ c = ' ' then
    match s.written with
    | [] => ⟨[], false⟩
    | w :: _ => if w = '_' then ⟨s.written, false⟩ else ⟨'_' :: s.written, false⟩
  else if Text.isUpper c then
    let start := if s.afterLower then '_' :: s.written else s.written
    ⟨(Text.lowerCase c).reverse ++ start, false⟩
  else ⟨c :: s.written, Text.isLower c || Text.isAsciiDigit c⟩

/-- A component name as a file name: `UserCard` gives `user_card`, `Menu.Item` gives `menu_item`. -/
def snakeCase (name : String) : String :=
  String.ofList (name.toList.foldl SnakeState.step ⟨[], false⟩).written.reverse

end JsxWidgets.Naming
