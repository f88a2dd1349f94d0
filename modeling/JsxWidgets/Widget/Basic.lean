/-!
# Widget trees

A widget is a constructor call: a tag, arguments, and children in a named slot. It also carries what
it was made from and comments for the reader of the written code. A child is either single or one of
an ordered collection; the two never occur together.
-/

namespace JsxWidgets

mutual

/-- A widget. -/
inductive Widget where
  /-- A widget from its tag, its arguments, its comments, its children, and the tag it was made
  from. -/
  | mk (tag : String) (properties : List Property) (comments : List String) (children : Children)
    (source : Option String)

/-- An argument, or a comment in the place of one. -/
inductive Property where
  /-- An argument from its name, which is empty if it goes by its position, and its value. The last
  part says whether it is only written as a comment. -/
  | mk (key : String) (value : Value) (isComment : Bool)

/-- The value of an argument. -/
inductive Value where
  /-- Code, written as it is. -/
  | raw (code : String)
  /-- A text, written in quotes. -/
  | text (text : String)
  /-- A truth value. -/
  | flag (value : Bool)
  /-- A widget. -/
  | widget (w : Widget)
  /-- Several values. -/
  | list (values : List Value)

/-- The children of a widget. -/
inductive Children where
  /-- No children. -/
  | none
  /-- One child in a slot. -/
  | single (slot : String) (w : Widget)
  /-- An ordered collection in a slot. -/
  | many (slot : String) (ws : List Widget)

end

instance : Inhabited Children := ⟨.none⟩
instance : Inhabited Widget := ⟨.mk "" [] [] .none none⟩
instance : Inhabited Value := ⟨.raw ""⟩
instance : Inhabited Property := ⟨.mk "" default false⟩

namespace Children

/-- Whether there are no children. -/
def isEmpty : Children → Bool
  | .none => true
  | .single .. => false
  | .many _ ws => ws.isEmpty

end Children

namespace Property

/-- The name of an argument. -/
def key : Property → String
  | .mk k _ _ => k

/-- The value of an argument. -/
def value : Property → Value
  | .mk _ v _ => v

/-- Whether it is only a comment. -/
def isComment : Property → Bool
  | .mk _ _ c => c

/-- An argument with a name. -/
def named (key : String) (value : Value) : Property := .mk key value false

/-- An argument that goes by its position. -/
def positional (value : Value) : Property := .mk "" value false

/-- A comment. -/
def comment (key text : String) : Property := .mk key (.raw text) true

end Property

namespace Widget

/-- The tag of a widget. -/
def tag : Widget → String
  | .mk t _ _ _ _ => t

/-- The arguments of a widget. -/
def properties : Widget → List Property
  | .mk _ ps _ _ _ => ps

/-- The comments of a widget. -/
def comments : Widget → List String
  | .mk _ _ cs _ _ => cs

/-- The children of a widget. -/
def children : Widget → Children
  | .mk _ _ _ ch _ => ch

/-- The tag that a widget was made from. -/
def source : Widget → Option String
  | .mk _ _ _ _ s => s

/-- Nothing to show: a widget without a tag. -/
def empty : Widget := .mk "" [] [] .none none

/-- A widget that shows a text. -/
def ofText (text : String) : Widget := .mk "Text" [.positional (.text text)] [] .none none

/-- What stands for something that is not evaluated. -/
def placeholder (comment : String) : Widget := .mk "Placeholder" [] [comment] .none none

/-- Widgets one below the other. -/
def column (ws : List Widget) : Widget := .mk "Column" [] [] (.many "children" ws) none

/-- Whether some arguments include a real one with a name. -/
def hasKey (key : String) (ps : List Property) : Bool := ps.any fun p => !p.isComment && p.key = key

/-- Whether a widget has a real argument with a name. -/
def hasProperty (w : Widget) (key : String) : Bool := hasKey key w.properties

/-- Whether there is nothing to write between the parentheses. -/
def isEmpty (w : Widget) : Bool :=
  w.properties.isEmpty && w.comments.isEmpty && w.children.isEmpty

end Widget

end JsxWidgets
