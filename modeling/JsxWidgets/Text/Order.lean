/-!
# Texts in byte order

Sets and tables keyed by texts are listed in the byte order of their keys, which for UTF-8 is the
order of code points and so the order `<` of `String`. Both are kept as sorted lists: `insertSorted`
adds an element to a set, `update` changes the entry of one key of a table.
-/

namespace JsxWidgets.Text

/-- Adds a text to a sorted list without repetition. -/
def insertSorted (x : String) : List String → List String
  | [] => [x]
  | y :: ys => if x < y then x :: y :: ys else if x = y then y :: ys else y :: insertSorted x ys

/-- The distinct texts of a list in order. -/
def sortedSet (xs : List String) : List String := xs.foldl (fun set x => insertSorted x set) []

/-- Replaces the entry of a key, or makes a new one from no entry, in a table sorted by keys. -/
def update {α : Type} (key : String) (change : Option α → α) :
    List (String × α) → List (String × α)
  | [] => [(key, change none)]
  | (k, v) :: rest =>
    if key < k then (key, change none) :: (k, v) :: rest
    else if key = k then (k, change (some v)) :: rest
    else (k, v) :: update key change rest

/-- How often each text occurs, in the order of the texts. -/
def tally (xs : List String) : List (String × Nat) :=
  xs.foldl (fun table x => update x (fun n => n.getD 0 + 1) table) []

/-- The distinct elements of a list in the order of their first occurrence. -/
def firstOccurrences {α : Type} [BEq α] (xs : List α) : List α :=
  xs.foldl (fun seen x => if seen.contains x then seen else seen ++ [x]) []

end JsxWidgets.Text
