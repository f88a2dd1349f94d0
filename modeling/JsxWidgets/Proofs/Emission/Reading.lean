import JsxWidgets.Dart.Emission

/-!
# Readings of widgets

The code of a widget does not tell a child in a slot from an argument with the name of the slot, nor
a collection in a slot from an argument that is a list. What it does tell is the reading of the
widget: a call with a tag and one list of arguments (`Widget.reading`). Comments and the tag that a
widget was made from are not part of it.

A widget is plain if it has no comments and no code in it, and if its tags and names are words. For
a plain widget, the code is that of its reading (`emitAt_reading`): the reading is written by
`Call.code`, which knows no children and no comments. What can be read off the code is then asked
of calls only.
-/

namespace JsxWidgets

namespace Dart

/-! ### Calls -/

mutual

/-- A call of a constructor. -/
inductive Call where
  /-- A call from its tag and its arguments. -/
  | mk (tag : String) (arguments : List Argument)

/-- An argument of a call. -/
inductive Argument where
  /-- An argument from its name, which is empty if it goes by its position, and its value. -/
  | mk (key : String) (value : Operand)

/-- The value of an argument. -/
inductive Operand where
  /-- Code, written as it is. -/
  | raw (code : String)
  /-- A text. -/
  | text (text : String)
  /-- A truth value. -/
  | flag (value : Bool)
  /-- A call. -/
  | call (c : Call)
  /-- Several values. -/
  | list (values : List Operand)

end

mutual

/-- The code of a call whose first line starts at a level. -/
def Call.code (level : Nat) : Call → List Char
  | .mk tag [] =>
    (if constantTags.contains tag then "const " else "").toList ++ (tag.toList ++ ['(', ')'])
  | .mk tag (a :: rest) =>
    tag.toList ++ '(' :: '\n' :: (Argument.codeOf (level + 1) (a :: rest)
      ++ ((pad level).toList ++ [')']))

/-- The code of arguments, one in each line. -/
def Argument.codeOf (level : Nat) : List Argument → List Char
  | [] => []
  | .mk key value :: rest =>
    (pad level).toList ++ (label key).toList ++ value.code level
      ++ (separator !rest.isEmpty).toList ++ Argument.codeOf level rest

/-- The code of a value. -/
def Operand.code (level : Nat) : Operand → List Char
  | .raw s => s.toList
  | .text s => (quoted s).toList
  | .flag b => (if b then "true" else "false").toList
  | .call c => c.code level
  | .list [] => ['[', ']']
  | .list (v :: vs) =>
    '[' :: '\n' :: (Operand.codeOf (level + 1) (v :: vs) ++ ((pad level).toList ++ [']']))

/-- The code of the items of a list, one in each line. -/
def Operand.codeOf (level : Nat) : List Operand → List Char
  | [] => []
  | v :: vs => (pad level).toList ++ v.code level ++ ',' :: '\n' :: Operand.codeOf level vs

end

end Dart

open Dart

/-! ### Readings -/

mutual

/-- **The reading of a widget**: a tag, and the arguments with the children behind them. -/
def Widget.reading : Widget → Call
  | .mk tag properties _ children _ => .mk tag (Property.readings properties ++ children.reading)

/-- The readings of arguments; comments are none. -/
def Property.readings : List Property → List Argument
  | [] => []
  | .mk key value isComment :: rest =>
    if isComment then Property.readings rest
    else .mk key value.reading :: Property.readings rest

/-- The reading of a value. -/
def Value.reading : Value → Operand
  | .raw s => .raw s
  | .text s => .text s
  | .flag b => .flag b
  | .widget w => .call w.reading
  | .list vs => .list (Value.readings vs)

/-- The readings of values. -/
def Value.readings : List Value → List Operand
  | [] => []
  | v :: vs => v.reading :: Value.readings vs

/-- Children as an argument: one as a widget, a collection as a list of widgets. -/
def Children.reading : Children → List Argument
  | .none => []
  | .single slot w => [.mk slot (.call w.reading)]
  | .many slot ws => [.mk slot (.list (Widget.readings ws))]

/-- The readings of widgets. -/
def Widget.readings : List Widget → List Operand
  | [] => []
  | w :: ws => .call w.reading :: Widget.readings ws

end

/-! ### Plain widgets -/

namespace Dart

/-- The characters that stand between words. -/
def isDelimiter (c : Char) : Bool := [':', ',', '(', ')', '[', ']', '\x27', ' ', '\n'].contains c

/-- Characters without a delimiter among them. -/
def IsFree (chars : List Char) : Prop := chars.all (!isDelimiter ·) = true

theorem isFree_cons {c : Char} {chars : List Char} :
    IsFree (c :: chars) ↔ isDelimiter c = false ∧ IsFree chars := by
  rw [IsFree, IsFree, List.all_cons, Bool.and_eq_true, Bool.not_eq_true']

/-- **A word**: a text that is not empty and has no delimiter in it. Identifiers are words, and so
are all texts of letters, digits, dots, underscores and dollar signs. -/
def IsWord (s : String) : Prop := s ≠ "" ∧ IsFree s.toList

/-- The characters of tags: letters, digits, dots, underscores and dollar signs. -/
def isTagCharacter (c : Char) : Bool := c.isAlphanum || c = '_' || c = '.' || c = '$'

/-- A text of such characters is a word, if it is not empty. -/
theorem isWord_of_tagCharacters {s : String} (hne : s ≠ "") (h : s.toList.all isTagCharacter) :
    IsWord s := by
  refine ⟨hne, List.all_eq_true.mpr fun c hc => ?_⟩
  have htag := List.all_eq_true.mp h c hc
  rw [Bool.not_eq_true', Bool.eq_false_iff]
  intro hdelimiter
  -- No delimiter is a character of tags.
  have hall : [':', ',', '(', ')', '[', ']', '\x27', ' ', '\n'].all (!isTagCharacter ·) = true := by
    decide
  have hno := List.all_eq_true.mp hall c (List.contains_iff_mem.mp hdelimiter)
  rw [htag] at hno
  cases hno

end Dart

mutual

/-- **A plain widget**: without comments and code, with words as tags and names, and without empty
collections. -/
def Widget.Plain : Widget → Prop
  | .mk tag properties comments children _ =>
    IsWord tag ∧ comments = [] ∧ Property.AllPlain properties ∧ children.Plain

/-- Arguments that are plain, none of them a comment. -/
def Property.AllPlain : List Property → Prop
  | [] => True
  | .mk key value isComment :: rest =>
    isComment = false ∧ (key = "" ∨ IsWord key) ∧ value.Plain ∧ Property.AllPlain rest

/-- A plain value. -/
def Value.Plain : Value → Prop
  | .raw _ => False
  | .text _ => True
  | .flag _ => True
  | .widget w => w.Plain
  | .list vs => Value.AllPlain vs

/-- Plain values. -/
def Value.AllPlain : List Value → Prop
  | [] => True
  | v :: vs => v.Plain ∧ Value.AllPlain vs

/-- Plain children. -/
def Children.Plain : Children → Prop
  | .none => True
  | .single slot w => IsWord slot ∧ w.Plain
  | .many slot ws => IsWord slot ∧ ws ≠ [] ∧ Widget.AllPlain ws

/-- Plain widgets. -/
def Widget.AllPlain : List Widget → Prop
  | [] => True
  | w :: ws => w.Plain ∧ Widget.AllPlain ws

end

/-! ### The code of a reading -/

/-- Plain arguments are all real. -/
theorem any_real_of_allPlain {ps : List Property} (h : Property.AllPlain ps) :
    (ps.any fun p => !p.isComment) = !(Property.readings ps).isEmpty := by
  match ps, h with
  | [], _ => rfl
  | .mk key value isComment :: rest, h =>
    obtain ⟨rfl, -⟩ := h
    rfl

theorem hasChildLine_eq (children : Children) :
    hasChildLine children = !children.reading.isEmpty := by
  cases children <;> rfl

/-- A plain widget has nothing between its parentheses if its reading has no arguments. -/
theorem isEmpty_reading {properties : List Property} {children : Children}
    (hproperties : Property.AllPlain properties) (hchildren : children.Plain) :
    (properties.isEmpty && children.isEmpty)
      = (Property.readings properties ++ children.reading).isEmpty := by
  match properties, hproperties with
  | .mk key value isComment :: rest, h =>
    obtain ⟨rfl, -⟩ := h
    rfl
  | [], _ =>
    cases children with
    | none => rfl
    | single slot w => rfl
    | many slot ws =>
      -- An empty collection would write nothing, but would be read as an empty list.
      cases ws with
      | nil => exact absurd rfl hchildren.2.1
      | cons w ws => rfl

namespace Dart

mutual

/-- **The code of a plain widget is the code of its reading.** -/
theorem emitAt_reading (level : Nat) (w : Widget) (h : w.Plain) :
    (emitAt level w).toList = w.reading.code level := by
  match w, h with
  | .mk tag properties comments children source, h =>
    obtain ⟨htag, rfl, hproperties, hchildren⟩ := h
    have hempty := isEmpty_reading hproperties hchildren
    have harguments := emitProperties_reading (level + 1) properties hproperties children.reading
    rw [← emitChildren_reading (level + 1) children hchildren, ← hasChildLine_eq] at harguments
    -- Without comments, it is the arguments and children that decide about the line breaks.
    rw [emitAt, Widget.reading, if_neg (by simpa using htag.1), List.isEmpty_nil, Bool.and_true,
      hempty]
    cases hreading : Property.readings properties ++ children.reading with
    | nil =>
      rw [List.isEmpty_nil, if_pos rfl, Call.code]
      simp only [String.toList_append, List.append_assoc]
      rfl
    | cons a rest =>
      rw [List.isEmpty_cons, if_neg Bool.false_ne_true, Call.code, ← hreading, ← harguments]
      simp only [List.map_nil, String.toList_append, List.append_assoc]
      rfl

theorem emitProperties_reading (level : Nat) (ps : List Property) (h : Property.AllPlain ps)
    (more : List Argument) :
    (emitProperties level (!more.isEmpty) ps).toList ++ Argument.codeOf level more
      = Argument.codeOf level (Property.readings ps ++ more) := by
  match ps, h with
  | [], _ => rfl
  | .mk key value isComment :: rest, h =>
    obtain ⟨rfl, -, hvalue, hrest⟩ := h
    -- There is a comma if another argument follows, be it a child.
    have hmore : (!more.isEmpty || rest.any fun p => !p.isComment)
        = !(Property.readings rest ++ more).isEmpty := by
      rw [any_real_of_allPlain hrest]
      cases Property.readings rest <;> simp
    rw [emitProperties, if_neg Bool.false_ne_true, hmore, Property.readings,
      if_neg Bool.false_ne_true, List.cons_append, Argument.codeOf,
      ← emitProperties_reading level rest hrest more, ← emitValue_reading level value hvalue]
    simp only [String.toList_append, List.append_assoc]

theorem emitValue_reading (level : Nat) (v : Value) (h : v.Plain) :
    (emitValue level v).toList = v.reading.code level := by
  match v, h with
  | .text s, _ => rw [emitValue, Value.reading, Operand.code]
  | .flag b, _ => rw [emitValue, Value.reading, Operand.code]
  | .widget w, h =>
    rw [emitValue, Value.reading, Operand.code]
    exact emitAt_reading level w h
  | .list [], _ =>
    rw [emitValue, Value.reading, Value.readings, Operand.code]
    rfl
  -- only a list that has items is printed over several lines
  | .list (v :: vs), h =>
    have hitems := emitItems_reading (level + 1) (v :: vs) h
    rw [emitItems, Value.readings] at hitems
    rw [emitValue, Value.reading, Value.readings, Operand.code, ← hitems]
    simp only [String.toList_append, List.append_assoc]
    rfl

theorem emitItems_reading (level : Nat) (vs : List Value) (h : Value.AllPlain vs) :
    (emitItems level vs).toList = Operand.codeOf level (Value.readings vs) := by
  match vs, h with
  | [], _ => rfl
  | v :: vs, h =>
    rw [emitItems, Value.readings, Operand.codeOf, ← emitItems_reading level vs h.2,
      ← emitValue_reading level v h.1]
    simp only [String.toList_append, List.append_assoc]
    rfl

theorem emitChildren_reading (level : Nat) (children : Children) (h : children.Plain) :
    (emitChildren level children).toList = Argument.codeOf level children.reading := by
  match children, h with
  | .none, _ => rfl
  | .single slot w, h =>
    rw [emitChildren, Children.reading, Argument.codeOf, Argument.codeOf, Operand.code,
      ← emitAt_reading level w h.2, label, if_neg (by simpa using h.1.1)]
    simp only [String.toList_append, List.append_assoc]
    rfl
  -- a plain widget has no empty list of children
  | .many slot [], h => exact absurd rfl h.2.1
  | .many slot (w :: ws), h =>
    have hitems := emitWidgets_reading (level + 1) (w :: ws) h.2.2
    rw [Widget.readings] at hitems
    rw [emitChildren, Children.reading, Widget.readings, Argument.codeOf, Argument.codeOf,
      Operand.code, ← hitems, label, if_neg (by simpa using h.1.1)]
    simp only [String.toList_append, List.append_assoc, List.cons_append]
    rfl

theorem emitWidgets_reading (level : Nat) (ws : List Widget) (h : Widget.AllPlain ws) :
    (emitWidgets level ws).toList = Operand.codeOf level (Widget.readings ws) := by
  match ws, h with
  | [], _ => rfl
  | w :: ws, h =>
    rw [emitWidgets, Widget.readings, Operand.codeOf, Operand.code,
      ← emitWidgets_reading level ws h.2, ← emitAt_reading level w h.1]
    simp only [String.toList_append, List.append_assoc]
    rfl

end

end Dart

end JsxWidgets
