/-!
# The table of elements

Which widget an element becomes. A row names the slot for its children, if it has one, the roles
that change how its attributes are read, and arguments that are always added. A user may replace the
widget of a row, but nothing else of it.
-/

namespace JsxWidgets

/-- Where the children of an element go. -/
inductive Slot where
  /-- They cannot be shown. -/
  | none
  /-- One child under a name. -/
  | single (name : String)
  /-- A collection under a name. -/
  | many (name : String)
  deriving DecidableEq, Repr, Inhabited

/-- What is special about an element. A row is also what looking up a tag answers, so it tells all
roles; the lowering itself asks for those that change how attributes and children are read, which
neither a list nor a text of several lines does. -/
structure Roles where
  /-- It shows text only. -/
  textLike : Bool := false
  /-- It is pressed. -/
  buttonLike : Bool := false
  /-- It is a list. -/
  listLike : Bool := false
  /-- It leads somewhere. -/
  navigational : Bool := false
  /-- Its text may have several lines. -/
  multiline : Bool := false
  deriving DecidableEq, Repr, Inhabited

/-- A row of the table. -/
structure ElementRow where
  /-- The tag of the element. -/
  source : String
  /-- The tag of the widget. -/
  target : String
  /-- Where the children go. -/
  slot : Slot
  /-- What is special. -/
  roles : Roles
  /-- Arguments that are added, as code. -/
  extras : List (String × String)
  deriving DecidableEq, Repr, Inhabited

namespace ElementRow

/-- Whether children can be shown. -/
def hasSlot (r : ElementRow) : Bool := r.slot ≠ .none

/-- The version of the table. -/
def tableVersion : String := "1.3.0"

/-- A row for an element that takes other elements. -/
def box (source target : String) (slot : Slot) : ElementRow := ⟨source, target, slot, {}, []⟩

/-- A row for an element that shows text, with the code of its style. -/
def styled (source style : String) : ElementRow :=
  ⟨source, "Text", .none, { textLike := true }, if style.isEmpty then [] else [("style", style)]⟩

/-- The style of bold text. -/
def bold : String := "const TextStyle(fontWeight: FontWeight.bold)"

/-- The style of slanted text. -/
def italic : String := "const TextStyle(fontStyle: FontStyle.italic)"

/-- A style of the theme. -/
def themed (name : String) : String := "Theme.of(context).textTheme." ++ name

/-- The rows. -/
def table : List ElementRow :=
  [box "div" "Container" (.single "child"),
   box "section" "Column" (.many "children"),
   box "header" "Column" (.many "children"),
   box "footer" "Column" (.many "children"),
   box "main" "Column" (.many "children"),
   box "article" "Column" (.many "children"),
   box "aside" "Column" (.many "children"),
   styled "span" "",
   ⟨"p", "Text", .none, { textLike := true, multiline := true }, []⟩,
   styled "h1" (themed "headlineLarge"),
   styled "h2" (themed "headlineMedium"),
   styled "h3" (themed "headlineSmall"),
   styled "h4" (themed "titleLarge"),
   styled "h5" (themed "titleMedium"),
   styled "h6" (themed "titleSmall"),
   styled "label" "",
   styled "strong" bold,
   styled "b" bold,
   styled "em" italic,
   styled "i" italic,
   styled "small" (themed "bodySmall"),
   styled "code" "const TextStyle(fontFamily: 'monospace')",
   ⟨"button", "ElevatedButton", .single "child", { buttonLike := true }, []⟩,
   ⟨"a", "InkWell", .single "child", { navigational := true }, []⟩,
   box "img" "Image.network" .none,
   box "input" "TextField" .none,
   ⟨"textarea", "TextField", .none, { multiline := true }, [("maxLines", "null")]⟩,
   ⟨"ul", "ListView", .many "children", { listLike := true }, [("shrinkWrap", "true")]⟩,
   ⟨"ol", "ListView", .many "children", { listLike := true }, [("shrinkWrap", "true")]⟩,
   box "li" "ListTile" (.single "title"),
   box "nav" "Row" (.many "children"),
   box "form" "Form" (.single "child"),
   box "hr" "Divider" .none,
   box "br" "SizedBox.shrink" .none,
   ⟨"select", "DropdownButton", .many "items", { listLike := true },
    [("onChanged", "(value) \x7b\x7d")]⟩,
   box "option" "DropdownMenuItem" (.single "child"),
   ⟨"table", "Table", .many "children", { listLike := true }, []⟩,
   ⟨"tr", "TableRow", .many "children", { listLike := true }, []⟩,
   box "td" "TableCell" (.single "child"),
   box "th" "TableCell" (.single "child")]

/-- The row for elements that the table does not know. -/
def fallback : ElementRow := box "*" "Container" (.single "child")

/-- The row of an element. -/
def find? (tag : String) : Option ElementRow := table.find? (·.source = tag)

end ElementRow

/-- Widgets that replace those of the table, by the tag of the element. -/
abbrev Overrides := List (String × String)

/-- A row with the widget that is used for it. -/
structure ResolvedRow where
  /-- The row. -/
  row : ElementRow
  /-- The tag of the widget. -/
  target : String
  deriving DecidableEq, Repr, Inhabited

/-- The row of an element with the widget that a user wants for it. -/
def Overrides.resolve? (overrides : Overrides) (tag : String) : Option ResolvedRow :=
  (ElementRow.find? tag).map fun row =>
    ⟨row, ((overrides.find? (·.1 = tag)).map (·.2)).getD row.target⟩

end JsxWidgets
