import JsxWidgets.Proofs.Decimal.Positional
import JsxWidgets.Proofs.Expression.Terms
import JsxWidgets.Proofs.Text.Parts
import JsxWidgets.Proofs.Text.Words
import JsxWidgets.Props.TypeText
import JsxWidgets.Syntax.Grammar.Types

/-!
# Signs in the texts of types

The text of a type is put together from the texts of the types in it, without the parentheses around
them. Three signs are looked for in such a text: an arrow anywhere, brackets at the end, and a name
with an angle bracket at the start.

Where they stand is known from the type itself (`textShows`): an arrow shows if a function or a
quoted text with an arrow is left in the text (`ShowsArrow`), and the other two signs are those of
the last and of the first type in it (`EndsInBrackets`, `StartsAs`). No sign stands across the seam
of two texts, since no text ends with the first character of a sign.
-/

namespace JsxWidgets.Dart

open Syntax Expression

/-! ### Types -/

/-- All parts of a dotted name are spelled like names. -/
def IsProperName : EntityName → Prop
  | .simple name => Term.IsWord name
  | .qualified left name => IsProperName left ∧ Term.IsWord name

/-- The forms of types that are known by nothing but that they are types. -/
def furtherForms : List Form :=
  [.queryType, .inferType, .mappedType, .predicateType, .compoundType, .makerType]

/-- **A type**, or an item of a tuple, which stands for its type. -/
inductive IsType : Node → Prop
  /-- A word of the language. -/
  | keyword {word place} (h : word ∈ typeKeywords) : IsType ⟨.keyword word, place, []⟩
  /-- A name, with or without arguments. -/
  | reference {place at₁ at₂ name args} (hname : IsProperName name) (hargs : ∀ a ∈ args, IsType a) :
    IsType ⟨.reference, place, [⟨.entity name, at₁, []⟩, ⟨.list, at₂, args⟩]⟩
  /-- An array. -/
  | array {place item} (h : IsType item) : IsType ⟨.arrayType, place, [item]⟩
  /-- Several types with an operator between them. -/
  | joined {form place first second rest} (hform : form = .unionType ∨ form = .interType)
    (h : ∀ t ∈ first :: second :: rest, IsType t) : IsType ⟨form, place, first :: second :: rest⟩
  /-- A text. -/
  | text {place} (value : String) : IsType ⟨.stringType value, place, []⟩
  /-- A number. -/
  | number {place} (negative : Bool) (value : Binary64) :
    IsType ⟨.numberType negative value, place, []⟩
  /-- A truth value. -/
  | truth {place} (value : Bool) : IsType ⟨.boolType value, place, []⟩
  /-- Another literal. -/
  | literal {place} (parts : List Node) : IsType ⟨.literalType, place, parts⟩
  /-- A function. -/
  | function {place result} (params typeParams : Node) (h : IsType result) :
    IsType ⟨.fnType, place, [params, typeParams, result]⟩
  /-- A type in parentheses. -/
  | paren {place inner} (h : IsType inner) : IsType ⟨.parenType, place, [inner]⟩
  /-- A tuple. -/
  | tuple {place items} (h : ∀ i ∈ items, IsType i) : IsType ⟨.tupleType, place, items⟩
  /-- An item of a tuple. -/
  | item {place type} (label : Node) (h : IsType type) : IsType ⟨.tupleItem, place, [label, type]⟩
  /-- An object. -/
  | object {place} (members : List Node) : IsType ⟨.objectType, place, members⟩
  /-- A type of another form. -/
  | further {form place} (hform : form ∈ furtherForms) (parts : List Node) :
    IsType ⟨form, place, parts⟩

/-! ### Signs -/

/-- The types whose texts are in the text of a type, except for those of a function. -/
def shownTypes : Node → List Node
  | ⟨form, _, parts⟩ =>
    match form, parts with
    | .reference, [_, ⟨_, _, args⟩] => args
    | .tupleItem, [_, type] => [type]
    | .arrayType, types | .unionType, types | .interType, types | .parenType, types
    | .tupleType, types => types
    | _, _ => []

/-- **An arrow shows** in a type: that of a function, or one in a quoted text. -/
inductive ShowsArrow : Node → Prop
  /-- A function has an arrow. -/
  | function {place parts} : ShowsArrow ⟨.fnType, place, parts⟩
  /-- A text may have one. -/
  | text {value place parts} (h : Text.contains "=>" value = true) :
    ShowsArrow ⟨.stringType value, place, parts⟩
  /-- An arrow shows in a type inside. -/
  | inside {n t} (ht : t ∈ shownTypes n) (h : ShowsArrow t) : ShowsArrow n

/-- **A type ends in a pair of brackets.** -/
inductive EndsInBrackets : Node → Prop
  /-- An array does. -/
  | array {place parts} : EndsInBrackets ⟨.arrayType, place, parts⟩
  /-- So does a tuple without items. -/
  | emptyTuple {place} : EndsInBrackets ⟨.tupleType, place, []⟩
  /-- The last type inside does. -/
  | last {form place parts t}
    (hform : form ∈ [.unionType, .interType, .fnType, .parenType, .tupleItem])
    (ht : parts.getLast? = some t) (h : EndsInBrackets t) : EndsInBrackets ⟨form, place, parts⟩

/-- **A type starts with a name that has arguments.** -/
inductive StartsAs (name : String) : Node → Prop
  /-- The name itself. -/
  | reference {place at₁ at₂ arg args} :
    StartsAs name
      ⟨.reference, place, [⟨.entity (.simple name), at₁, []⟩, ⟨.list, at₂, arg :: args⟩]⟩
  /-- The first type inside starts with it. -/
  | first {form place parts t} (hform : form ∈ [.arrayType, .unionType, .interType, .parenType])
    (ht : parts.head? = some t) (h : StartsAs name t) : StartsAs name ⟨form, place, parts⟩
  /-- The type of an item starts with it. -/
  | item {place label type} (h : StartsAs name type) :
    StartsAs name ⟨.tupleItem, place, [label, type]⟩

/-! ### Characters of texts -/

/-- A character that is part of no sign and is not passed over at the ends. -/
def IsBareChar (c : Char) : Prop := Text.isBlank c = false ∧ c ≠ '=' ∧ c ≠ '[' ∧ c ≠ '<'

instance (c : Char) : Decidable (IsBareChar c) := inferInstanceAs (Decidable (_ ∧ _ ∧ _ ∧ _))

/-- Characters that are looked at one by one. -/
theorem isBareChar_of_all {chars : List Char} (h : chars.all (IsBareChar ·) = true) :
    ∀ c ∈ chars, IsBareChar c :=
  fun c hc => of_decide_eq_true (List.all_eq_true.mp h c hc)

/-- A text without any sign. -/
structure IsBare (chars : List Char) : Prop where
  /-- It is not empty. -/
  nonempty : chars ≠ []
  /-- It is made of bare characters. -/
  bare : ∀ c ∈ chars, IsBareChar c

instance (chars : List Char) : Decidable (IsBare chars) :=
  decidable_of_iff (chars ≠ [] ∧ chars.all (IsBareChar ·) = true)
    ⟨fun h => ⟨h.1, isBareChar_of_all h.2⟩,
      fun h => ⟨h.1, List.all_eq_true.mpr fun c hc => decide_eq_true (h.bare c hc)⟩⟩

/-- Characters of names are bare. -/
theorem isBareChar_of_isIdentifierPart {c : Char} (h : Text.isIdentifierPart c = true) :
    IsBareChar c := by
  have hne {d : Char} (hd : Text.isIdentifierPart d = false) : c ≠ d := by
    rintro rfl
    rw [hd] at h
    cases h
  exact ⟨Text.isBlank_eq_false_of_isIdentifierPart h, hne (by decide), hne (by decide),
    hne (by decide)⟩

/-- A digit is part of no sign. -/
theorem isBareChar_of_isDigit {c : Char} (h : c.isDigit = true) : IsBareChar c :=
  isBareChar_of_isIdentifierPart (Term.isIdentifierPart_of_isDigit h)

/-- A word is without signs. -/
theorem isBare_word {name : String} (h : Term.IsWord name) : IsBare name.toList := by
  refine ⟨?_, fun c hc => isBareChar_of_isIdentifierPart (h.isIdentifierPart c hc)⟩
  obtain ⟨c, cs, heq, -⟩ := h
  rw [heq]
  exact List.cons_ne_nil c cs

/-- So is a dotted name of words. -/
theorem isBare_name {name : EntityName} (h : IsProperName name) : IsBare name.text.toList := by
  induction name with
  | simple name => exact isBare_word h
  | qualified left name ih =>
    obtain ⟨hleft, hname⟩ := h
    rw [EntityName.text, String.toList_append, String.toList_append]
    refine ⟨List.append_ne_nil_of_right_ne_nil _ (isBare_word hname).nonempty, ?_⟩
    refine List.forall_mem_append.mpr ⟨List.forall_mem_append.mpr ⟨(ih hleft).bare, ?_⟩,
      (isBare_word hname).bare⟩
    exact isBareChar_of_all (by decide)

/-- So is a number, with a minus sign or without. -/
theorem isBare_number (negative : Bool) (value : Binary64) :
    IsBare ((if negative then "-" else "") ++ value.positional).toList := by
  have hsign : ∀ c ∈ (if negative then "-" else "").toList, IsBareChar c :=
    isBareChar_of_all (by cases negative <;> decide)
  rw [String.toList_append]
  -- an infinite number is written as a word, a finite one by its digits
  cases value with
  | infinite =>
    exact ⟨List.append_ne_nil_of_right_ne_nil _ (by decide),
      List.forall_mem_append.mpr ⟨hsign, isBareChar_of_all (by decide)⟩⟩
  | finite m e =>
    obtain ⟨whole, places, hdigits, htext, -⟩ := Binary64.exists_positional_eq m e
    obtain ⟨hwhole, hplaces⟩ := List.forall_mem_append.mp hdigits.digits
    rw [htext, Binary64.numeral]
    refine ⟨List.append_ne_nil_of_right_ne_nil _
      (List.append_ne_nil_of_left_ne_nil hdigits.nonempty _), ?_⟩
    refine List.forall_mem_append.mpr ⟨hsign, List.forall_mem_append.mpr
      ⟨fun c hc => isBareChar_of_isDigit (hwhole c hc), ?_⟩⟩
    split_ifs
    · exact List.forall_mem_nil _
    · exact List.forall_mem_cons.mpr
        ⟨by decide, fun c hc => isBareChar_of_isDigit (hplaces c hc)⟩

/-- A text that starts with a character that is not passed over. -/
def StartsTight (chars : List Char) : Prop :=
  ∃ c, chars.head? = some c ∧ Text.isBlank c = false

/-- A text that ends with a character that is not passed over and that no sign starts with. -/
def EndsTight (chars : List Char) : Prop :=
  ∃ c, chars.getLast? = some c ∧ Text.isBlank c = false ∧ c ≠ '=' ∧ c ≠ '['

/-- A text starts as its front does. -/
theorem StartsTight.append {chars : List Char} (h : StartsTight chars) (more : List Char) :
    StartsTight (chars ++ more) := by
  obtain ⟨c, hc, htight⟩ := h
  exact ⟨c, by rw [List.head?_append, hc, Option.some_or], htight⟩

/-- A text ends as its back does. -/
theorem EndsTight.append (front : List Char) {chars : List Char} (h : EndsTight chars) :
    EndsTight (front ++ chars) := by
  obtain ⟨c, hc, htight⟩ := h
  exact ⟨c, by rw [List.getLast?_append, hc, Option.some_or], htight⟩

/-- A text with an end is not empty. -/
theorem EndsTight.ne_nil {chars : List Char} (h : EndsTight chars) : chars ≠ [] := by
  rintro rfl
  obtain ⟨c, hc, -⟩ := h
  cases hc

/-- Such an end is no start of a sign. -/
theorem EndsTight.getLast?_ne {chars : List Char} (h : EndsTight chars) {d : Char}
    (hd : d = '=' ∨ d = '[') : chars.getLast? ≠ some d := by
  obtain ⟨c, hc, -, heq, hopen⟩ := h
  rw [hc]
  rintro ⟨⟩
  exact hd.elim heq hopen

namespace IsBare

variable {chars : List Char} (h : IsBare chars)
include h

/-- A text that shows the signs of a type starts tight. -/
theorem startsTight : StartsTight chars := by
  obtain ⟨c, rest, rfl⟩ := List.exists_cons_of_ne_nil h.nonempty
  exact ⟨c, rfl, (h.bare c List.mem_cons_self).1⟩

/-- It ends tight. -/
theorem endsTight : EndsTight chars := by
  have hc := h.bare _ (List.getLast_mem h.nonempty)
  exact ⟨_, List.getLast?_eq_some_getLast h.nonempty, hc.1, hc.2.1, hc.2.2.1⟩

/-- There is no arrow in it. -/
theorem not_arrow : ¬['=', '>'] <:+: chars := fun hin =>
  (h.bare '=' (hin.subset List.mem_cons_self)).2.1 rfl

/-- There are no brackets at its end. -/
theorem not_brackets : ¬['[', ']'] <:+ chars := fun hend =>
  (h.bare '[' (hend.subset List.mem_cons_self)).2.2.1 rfl

/-- There is no angle bracket in it. -/
theorem angle_notMem : '<' ∉ chars := fun hmem => (h.bare '<' hmem).2.2.2 rfl

end IsBare

/-! ### Signs by form -/

/-- A form that leaves a sign in the text of a type. -/
def leavesSign : Form → Bool
  | .reference | .arrayType | .unionType | .interType | .fnType | .parenType | .tupleType
  | .tupleItem | .stringType _ => true
  | _ => false

/-- A type in which an arrow shows has a form that leaves a sign. -/
theorem ShowsArrow.leavesSign {n : Node} (h : ShowsArrow n) : leavesSign n.form = true := by
  cases h with
  | function | text => rfl
  | inside ht =>
    obtain ⟨form, place, parts⟩ := n
    rw [shownTypes.eq_def] at ht
    dsimp only at ht
    split at ht
    case h_8 => cases ht
    all_goals rfl

/-- So has a type that ends in brackets. -/
theorem EndsInBrackets.leavesSign {n : Node} (h : EndsInBrackets n) :
    leavesSign n.form = true := by
  cases h with
  | array | emptyTuple => rfl
  | last hform =>
    have hall : ∀ form ∈ [Form.unionType, .interType, .fnType, .parenType, .tupleItem],
      Dart.leavesSign form = true := by decide
    exact hall _ hform

/-- So has a type that starts with a name with arguments. -/
theorem StartsAs.leavesSign {name : String} {n : Node} (h : StartsAs name n) :
    leavesSign n.form = true := by
  cases h with
  | reference | item => rfl
  | first hform =>
    have hall : ∀ form ∈ [Form.arrayType, .unionType, .interType, .parenType],
      Dart.leavesSign form = true := by decide
    exact hall _ hform

/-- In most forms an arrow shows only if it does in a type inside. -/
theorem showsArrow_iff_inside {form : Form} {place : Place} {parts : List Node}
    (hform : form ∈ [.reference, .arrayType, .unionType, .interType, .parenType, .tupleType,
      .tupleItem]) :
    ShowsArrow ⟨form, place, parts⟩ ↔ ∃ t ∈ shownTypes ⟨form, place, parts⟩, ShowsArrow t := by
  constructor
  · intro h
    cases h with
    | function => exact absurd hform (by decide)
    | text => simp at hform
    | inside ht h => exact ⟨_, ht, h⟩
  · rintro ⟨t, ht, h⟩
    exact .inside ht h

/-- Some forms end in brackets only if their last part does. -/
theorem endsInBrackets_iff_last {form : Form} {place : Place} {parts : List Node}
    (hform : form ∈ [.unionType, .interType, .fnType, .parenType, .tupleItem]) :
    EndsInBrackets ⟨form, place, parts⟩ ↔
      ∃ t, parts.getLast? = some t ∧ EndsInBrackets t := by
  constructor
  · intro h
    cases h with
    | array | emptyTuple => exact absurd hform (by decide)
    | last _ ht h => exact ⟨_, ht, h⟩
  · rintro ⟨t, ht, h⟩
    exact .last hform ht h

/-- Some forms start with such a name only if their first part does. -/
theorem startsAs_iff_first {name : String} {form : Form} {place : Place} {parts : List Node}
    (hform : form ∈ [.arrayType, .unionType, .interType, .parenType]) :
    StartsAs name ⟨form, place, parts⟩ ↔ ∃ t, parts.head? = some t ∧ StartsAs name t := by
  constructor
  · intro h
    cases h with
    | reference | item => exact absurd hform (by decide)
    | first _ ht h => exact ⟨_, ht, h⟩
  · rintro ⟨t, ht, h⟩
    exact .first hform ht h

/-- A name with arguments starts with itself. -/
theorem StartsAs.name_eq {word : String} {name : EntityName} {place at₁ : Place} {args : Node}
    (h : StartsAs word ⟨.reference, place, [⟨.entity name, at₁, []⟩, args]⟩) :
    name = .simple word := by
  cases h with
  | reference => rfl
  | first hform => exact absurd hform (by decide)

/-! ### Texts of types -/

/-- The characters of the text of a type. -/
def charsOf (type : Node) : List Char := (typeText type).toList

/-- **The text of a type shows the signs of the type**, and no others. -/
structure TextShows (type : Node) : Prop where
  /-- It starts with a character that is not passed over. -/
  first : StartsTight (charsOf type)
  /-- It ends with one. -/
  last : EndsTight (charsOf type)
  /-- Arrows. -/
  arrow : ['=', '>'] <:+: charsOf type ↔ ShowsArrow type
  /-- Brackets at the end. -/
  brackets : ['[', ']'] <:+ charsOf type ↔ EndsInBrackets type
  /-- Names with arguments at the start. -/
  start : ∀ name, Term.IsWord name →
    (name.toList ++ ['<'] <+: charsOf type ↔ StartsAs name type)

/-- The characters of several texts with a separator between them. -/
theorem toList_typeTexts (sep : String) (types : List Node) :
    (sep.intercalate (typeTexts types)).toList = sep.toList.intercalate (types.map charsOf) := by
  have hmap : typeTexts types = types.map typeText := by
    induction types with
    | nil => rfl
    | cons t types ih => rw [typeTexts, ih, List.map_cons]
  rw [String.toList_intercalate, hmap, List.map_map]
  rfl

section Starts

variable {name : String} (hname : Term.IsWord name) {c : Char}
  (hc : Text.isIdentifierPart c = false)
include hname hc

/-- What a name with arguments starts with is no other character. -/
theorem notMem_start (hne : c ≠ '<') : c ∉ name.toList ++ ['<'] := by
  rw [List.mem_append, List.mem_singleton]
  rintro (hmem | rfl)
  · rw [hname.isIdentifierPart c hmem] at hc
    cases hc
  · exact hne rfl

/-- A text that starts with another character does not start with the name. -/
theorem not_start_cons (rest : List Char) : ¬name.toList ++ ['<'] <+: c :: rest := by
  obtain ⟨d, cs, heq, hd, -⟩ := hname
  rw [heq, List.cons_append, List.cons_prefix_cons]
  rintro ⟨rfl, -⟩
  rw [Term.isIdentifierPart_of_start hd] at hc
  cases hc

end Starts

namespace TextShows

/-- A text without signs is that of a type without them. -/
theorem of_bare {type : Node} (hbare : IsBare (charsOf type)) (harrow : ¬ShowsArrow type)
    (hbrackets : ¬EndsInBrackets type) (hstart : ∀ name, ¬StartsAs name type) :
    TextShows type where
  first := hbare.startsTight
  last := hbare.endsTight
  arrow := iff_of_false hbare.not_arrow harrow
  brackets := iff_of_false hbare.not_brackets hbrackets
  start name _ := by
    refine iff_of_false (fun hbegins => hbare.angle_notMem (hbegins.subset ?_)) (hstart name)
    exact List.mem_append_right _ List.mem_cons_self

/-- Most forms leave no sign. -/
theorem of_form {type : Node} (text : String) (htext : typeText type = text)
    (hform : leavesSign type.form = false) (hbare : IsBare text.toList) : TextShows type := by
  have hnot {P : Prop} (h : P → leavesSign type.form = true) : ¬P := fun hP => by
    rw [h hP] at hform
    cases hform
  exact of_bare (by rwa [charsOf, htext]) (hnot ShowsArrow.leavesSign)
    (hnot EndsInBrackets.leavesSign) fun name => hnot StartsAs.leavesSign

variable {place : Place}

/-- Parentheses are not in the text. -/
theorem paren {inner : Node} (h : TextShows inner) :
    TextShows ⟨.parenType, place, [inner]⟩ where
  first := h.first
  last := h.last
  arrow := by
    rw [showsArrow_iff_inside (by decide)]
    exact h.arrow.trans (by simp [shownTypes])
  brackets := by
    rw [endsInBrackets_iff_last (by decide)]
    exact h.brackets.trans (by simp)
  start name hname := by
    rw [startsAs_iff_first (by decide)]
    exact (h.start name hname).trans (by simp)

/-- Neither is the label of an item. -/
theorem item {label type : Node} (h : TextShows type) :
    TextShows ⟨.tupleItem, place, [label, type]⟩ where
  first := h.first
  last := h.last
  arrow := by
    rw [showsArrow_iff_inside (by decide)]
    exact h.arrow.trans (by simp [shownTypes])
  brackets := by
    rw [endsInBrackets_iff_last (by decide)]
    exact h.brackets.trans (by simp)
  start name hname := by
    refine (h.start name hname).trans ⟨.item, fun hstart => ?_⟩
    cases hstart with
    | first hform => exact absurd hform (by decide)
    | item h => exact h

/-- An array adds brackets at the end. -/
theorem array {item : Node} (h : TextShows item) :
    TextShows ⟨.arrayType, place, [item]⟩ := by
  have hchars : charsOf ⟨.arrayType, place, [item]⟩ = charsOf item ++ ['[', ']'] :=
    String.toList_append
  have hlast : EndsTight ['[', ']'] := ⟨']', rfl, by decide⟩
  refine ⟨hchars ▸ h.first.append _, hchars ▸ hlast.append _, ?_, ?_, fun name hname => ?_⟩
  -- No arrow stands across the seam, and there is none in the brackets.
  · rw [hchars, Text.pair_infix_append (Or.inl (h.last.getLast?_ne (Or.inl rfl))),
      or_iff_left (by decide), h.arrow, showsArrow_iff_inside (by decide)]
    simp [shownTypes]
  · rw [hchars]
    exact iff_of_true (List.suffix_append _ _) .array
  · have hopen : '[' ∉ name.toList ++ ['<'] := notMem_start hname (by decide) (by decide)
    rw [hchars, Text.prefix_append_iff (by simpa using hopen), h.start name hname,
      startsAs_iff_first (by decide)]
    simp

/-- Only a text that ends with a bracket has brackets at its end. -/
theorem not_brackets_of_getLast {chars : List Char} {c : Char} (h : chars.getLast? = some c)
    (hc : c ≠ ']') : ¬['[', ']'] <:+ chars := by
  rintro ⟨front, rfl⟩
  rw [List.append_cons, List.getLast?_concat] at h
  cases h
  exact hc rfl

/-! ### Several types -/

section Lists

variable {sep : List Char} {types : List Node} (h : ∀ t ∈ types, TextShows t)
include h

/-- An arrow shows in texts with something in between exactly if it does in one of them. -/
theorem arrow_intercalate (hsep : '=' ∉ sep) :
    ['=', '>'] <:+: sep.intercalate (types.map charsOf) ↔ ∃ t ∈ types, ShowsArrow t := by
  have hlast : ∀ chars ∈ types.map charsOf, chars.getLast? ≠ some '=' :=
    List.forall_mem_map.mpr fun t ht => (h t ht).last.getLast?_ne (Or.inl rfl)
  rw [Text.pair_infix_intercalate hsep hlast]
  simp only [List.mem_map, exists_exists_and_eq_and]
  exact exists_congr fun t => and_congr_right fun ht => (h t ht).arrow

/-- The text ends with that of the last type, and a separator in front of it if there are more. -/
theorem exists_eq_append_last (sep : List Char) (hne : types ≠ []) :
    ∃ front t, types.getLast? = some t ∧ TextShows t ∧
      sep.intercalate (types.map charsOf) = front ++ charsOf t ∧ (front = [] ∨ sep <:+ front) := by
  have hlast := List.getLast?_eq_some_getLast hne
  have hlast' : (types.map charsOf).getLast? = some (charsOf (types.getLast hne)) := by
    rw [List.getLast?_map, hlast, Option.map_some]
  obtain ⟨front, heq, hfront⟩ := Text.exists_intercalate_eq_append sep hlast'
  exact ⟨front, _, hlast, h _ (List.getLast_mem hne), heq, hfront⟩

end Lists

/-- Several types show the signs of each of them. -/
theorem joined {form : Form} {first second : Node} {rest : List Node}
    (hform : form = .unionType ∨ form = .interType)
    (h : ∀ t ∈ first :: second :: rest, TextShows t) :
    TextShows ⟨form, place, first :: second :: rest⟩ := by
  obtain ⟨sep, hchars, hsep, hhead, hlast⟩ : ∃ sep : List Char,
      charsOf ⟨form, place, first :: second :: rest⟩ =
        sep.intercalate ((first :: second :: rest).map charsOf) ∧
      '=' ∉ sep ∧ sep.head? = some ' ' ∧ sep.getLast? = some ' ' := by
    rcases hform with rfl | rfl
    · exact ⟨" | ".toList, toList_typeTexts _ _, by decide⟩
    · exact ⟨" & ".toList, toList_typeTexts _ _, by decide⟩
  have hforms {forms : List Form} (hunion : .unionType ∈ forms) (hinter : .interType ∈ forms) :
      form ∈ forms := by
    rcases hform with rfl | rfl
    · exact hunion
    · exact hinter
  have hshown : shownTypes ⟨form, place, first :: second :: rest⟩ = first :: second :: rest := by
    rcases hform with rfl | rfl <;> rfl
  -- The text is seen once from its first type on and once up to its last one. On the other side of
  -- either seam stands a blank, if there is anything.
  have hfirst := h first List.mem_cons_self
  obtain ⟨behind, hbehind, hsep'⟩ :=
    Text.intercalate_cons_eq sep (charsOf first) ((second :: rest).map charsOf)
  obtain ⟨front, t, ht, htext, hfront, hsep''⟩ :=
    exists_eq_append_last h sep (List.cons_ne_nil first _)
  refine ⟨?_, ?_, ?_, ?_, fun name hname => ?_⟩
  · rw [hchars, List.map_cons, hbehind]
    exact hfirst.first.append _
  · rw [hchars, hfront]
    exact htext.last.append _
  · rw [hchars, arrow_intercalate h hsep,
      showsArrow_iff_inside (hforms (by decide) (by decide)), hshown]
  · have hopen : front.getLast? ≠ some '[' := by
      rcases hsep'' with rfl | ⟨more, rfl⟩
      · decide
      · rw [List.getLast?_append, hlast, Option.some_or]
        decide
    rw [hchars, hfront, Text.pair_suffix_append hopen htext.last.ne_nil, htext.brackets,
      endsInBrackets_iff_last (hforms (by decide) (by decide)), ht]
    simp
  · have hblank : ' ' ∉ name.toList ++ ['<'] := notMem_start hname (by decide) (by decide)
    have hseam : ∀ c ∈ behind.head?, c ∉ name.toList ++ ['<'] := by
      rcases hsep' with rfl | ⟨more, rfl⟩
      · exact nofun
      · rw [List.head?_append, hhead]
        simpa using hblank
    rw [hchars, List.map_cons, hbehind, Text.prefix_append_iff hseam, hfirst.start name hname,
      startsAs_iff_first (hforms (by decide) (by decide))]
    simp

/-- A quoted text shows its own arrows. -/
theorem text (value : String) : TextShows ⟨.stringType value, place, []⟩ := by
  have hchars : charsOf ⟨.stringType value, place, []⟩ = ['"'] ++ (value.toList ++ ['"']) := by
    rw [charsOf, typeText, String.toList_append, String.toList_append, List.append_assoc]
    rfl
  have hlast : EndsTight ['"'] := ⟨'"', rfl, by decide⟩
  refine ⟨⟨'"', ?_, by decide⟩, ?_, ?_, iff_of_false ?_ ?_, fun name hname => iff_of_false ?_ ?_⟩
  · rw [hchars]
    rfl
  · rw [hchars]
    exact (hlast.append _).append _
  -- A quote is part of no arrow.
  · rw [hchars, Text.pair_infix_append (Or.inl (by decide)),
      Text.pair_infix_append (Or.inr (by decide)), or_iff_right (by decide),
      or_iff_left (by decide)]
    refine Text.contains_iff.symm.trans ⟨ShowsArrow.text, fun hshows => ?_⟩
    cases hshows with
    | text h => exact h
    | inside ht => exact absurd ht List.not_mem_nil
  · exact not_brackets_of_getLast (by rw [hchars, ← List.append_assoc, List.getLast?_concat])
      (by decide)
  · intro hends
    cases hends with
    | last hform => simp at hform
  · rw [hchars]
    exact not_start_cons hname (by decide) _
  · intro hstarts
    cases hstarts with
    | first hform => simp at hform

/-- The type of a function shows an arrow, and its result stands at the end. -/
theorem function {params typeParams result : Node} (h : TextShows result) :
    TextShows ⟨.fnType, place, [params, typeParams, result]⟩ := by
  obtain ⟨front, hchars⟩ : ∃ front, charsOf ⟨.fnType, place, [params, typeParams, result]⟩ =
      '(' :: (front ++ [')', ' ', '=', '>', ' ']) ++ charsOf result := by
    obtain ⟨form, at₁, parts⟩ := params
    refine ⟨(", ".intercalate (parameterTexts parts)).toList, ?_⟩
    rw [charsOf, typeText, String.toList_append, String.toList_append, String.toList_append]
    simp [charsOf]
  refine ⟨⟨'(', by rw [hchars]; rfl, by decide⟩, ?_, iff_of_true ?_ .function, ?_,
    fun name hname => iff_of_false ?_ ?_⟩
  · rw [hchars]
    exact h.last.append _
  · rw [hchars]
    refine ⟨'(' :: (front ++ [')', ' ']), ' ' :: charsOf result, ?_⟩
    simp
  -- A blank stands in front of the result, so the brackets at the end are its own.
  · rw [hchars, Text.pair_suffix_append (by simp [List.getLast?_cons]) h.last.ne_nil, h.brackets,
      endsInBrackets_iff_last (by decide)]
    simp
  · rw [hchars]
    exact not_start_cons hname (by decide) _
  · intro hstarts
    cases hstarts with
    | first hform => exact absurd hform (by decide)

/-- A tuple shows the signs of its items. -/
theorem tuple {items : List Node} (h : ∀ i ∈ items, TextShows i) :
    TextShows ⟨.tupleType, place, items⟩ := by
  have hchars : charsOf ⟨.tupleType, place, items⟩ =
      ['['] ++ ([',', ' '].intercalate (items.map charsOf) ++ [']']) := by
    rw [charsOf, typeText, String.toList_append, String.toList_append, toList_typeTexts,
      List.append_assoc]
    rfl
  refine ⟨⟨'[', by rw [hchars]; rfl, by decide⟩, ⟨']', ?_, by decide⟩, ?_, ?_,
    fun name hname => iff_of_false ?_ ?_⟩
  · rw [hchars, ← List.append_assoc, List.getLast?_concat]
  · rw [hchars, Text.pair_infix_append (Or.inl (by decide)),
      Text.pair_infix_append (Or.inr (by decide)), or_iff_right (by decide),
      or_iff_left (by decide), arrow_intercalate h (by decide), showsArrow_iff_inside (by decide)]
    rfl
  · by_cases hitems : items = []
    · subst hitems
      rw [hchars]
      exact iff_of_true (by decide) .emptyTuple
    -- The last item does not end with the bracket that the one behind it would need.
    · obtain ⟨front, t, -, htext, hfront, -⟩ := exists_eq_append_last h [',', ' '] hitems
      refine iff_of_false ?_ fun hends => ?_
      · rw [hchars, ← List.append_assoc, hfront, Text.pair_suffix_append
          (((htext.last.append _).append _).getLast?_ne (Or.inr rfl)) (List.cons_ne_nil _ _)]
        decide
      · cases hends with
        | emptyTuple => exact hitems rfl
        | last hform => exact absurd hform (by decide)
  · rw [hchars]
    exact not_start_cons hname (by decide) _
  · intro hstarts
    cases hstarts with
    | first hform => exact absurd hform (by decide)

/-- A dotted name is a name if it is spelled like one. -/
theorem text_eq_iff {name : EntityName} {word : String} (hword : Term.IsWord word) :
    name.text = word ↔ name = .simple word := by
  cases name with
  | simple name => simp [EntityName.text]
  | qualified left name =>
    refine iff_of_false ?_ nofun
    rintro rfl
    have hpoint : '.' ∈ (EntityName.qualified left name).text.toList := by simp [EntityName.text]
    exact absurd (hword.isIdentifierPart '.' hpoint) (by decide)

/-- A name with arguments shows the signs of the arguments. -/
theorem reference {at₁ at₂ : Place} {name : EntityName} {arg : Node} {args : List Node}
    (hname : IsProperName name) (h : ∀ a ∈ arg :: args, TextShows a) :
    TextShows ⟨.reference, place, [⟨.entity name, at₁, []⟩, ⟨.list, at₂, arg :: args⟩]⟩ := by
  have hchars :
      charsOf ⟨.reference, place, [⟨.entity name, at₁, []⟩, ⟨.list, at₂, arg :: args⟩]⟩ =
        name.text.toList ++
          (['<'] ++ ([',', ' '].intercalate ((arg :: args).map charsOf) ++ ['>'])) := by
    rw [charsOf, typeText, String.toList_append, String.toList_append, String.toList_append,
      toList_typeTexts, List.append_assoc, List.append_assoc]
    · rfl
    · exact List.cons_ne_nil arg args
  have hbare := isBare_name hname
  obtain ⟨front, t, -, htext, hfront, -⟩ :=
    exists_eq_append_last h [',', ' '] (List.cons_ne_nil _ _)
  have hlast : EndsTight ([',', ' '].intercalate ((arg :: args).map charsOf)) :=
    hfront ▸ htext.last.append front
  have hend : (charsOf ⟨.reference, place,
      [⟨.entity name, at₁, []⟩, ⟨.list, at₂, arg :: args⟩]⟩).getLast? = some '>' := by
    rw [hchars, ← List.append_assoc, ← List.append_assoc, List.getLast?_concat]
  refine ⟨?_, ⟨'>', hend, by decide⟩, ?_,
    iff_of_false (not_brackets_of_getLast hend (by decide)) fun hends => ?_, fun word hword => ?_⟩
  · rw [hchars]
    exact hbare.startsTight.append _
  · rw [hchars, Text.pair_infix_append (Or.inl (hbare.endsTight.getLast?_ne (Or.inl rfl))),
      or_iff_right hbare.not_arrow, Text.pair_infix_append (Or.inl (by decide)),
      or_iff_right (by decide),
      Text.pair_infix_append (Or.inl (hlast.getLast?_ne (Or.inl rfl))), or_iff_left (by decide),
      arrow_intercalate h (by decide), showsArrow_iff_inside (by decide)]
    rfl
  · cases hends with
    | last hform => exact absurd hform (by decide)
  -- Neither name holds an angle bracket, so the first one in the text is behind both.
  · rw [hchars, List.singleton_append,
      Text.concat_prefix_iff (isBare_word hword).angle_notMem hbare.angle_notMem,
      String.toList_inj, eq_comm, text_eq_iff hword]
    refine ⟨?_, StartsAs.name_eq⟩
    rintro rfl
    exact .reference

end TextShows

/-- A name without arguments leaves no sign. -/
theorem TextShows.name {place at₁ at₂ : Place} {name : EntityName} (h : IsProperName name) :
    TextShows ⟨.reference, place, [⟨.entity name, at₁, []⟩, ⟨.list, at₂, []⟩]⟩ := by
  refine of_bare (isBare_name h) (fun hshows => ?_) (fun hends => ?_) fun name hstarts => ?_
  · cases hshows with
    | inside ht => exact List.not_mem_nil ht
  · cases hends with
    | last hform => exact absurd hform (by decide)
  · cases hstarts with
    | first hform => exact absurd hform (by decide)

/-- **The text of every type shows its signs.** -/
theorem textShows {type : Node} (h : IsType type) : TextShows type := by
  -- What is known of the texts inside is all that a form needs for its own: where a sign could
  -- stand across a seam, the ends of the texts rule it out.
  induction h with
  | @keyword word _ hword =>
    have hall : ∀ word ∈ typeKeywords,
        IsBare (if plainTypeWords.contains word then word else "unknown").toList := by decide
    exact .of_form _ rfl rfl (hall word hword)
  | @reference _ _ _ _ args hname _ ih =>
    cases args with
    | nil => exact .name hname
    | cons => exact .reference hname ih
  | array _ ih => exact ih.array
  | joined hform _ ih => exact .joined hform ih
  | text => exact .text _
  | number negative value => exact .of_form _ rfl rfl (isBare_number negative value)
  | truth value => exact .of_form (if value then "true" else "false") rfl rfl (by decide +revert)
  | literal => exact .of_form "literal" rfl rfl (by decide)
  | function _ _ _ ih => exact ih.function
  | paren _ ih => exact ih.paren
  | tuple _ ih => exact .tuple ih
  | item _ _ ih => exact ih.item
  | object => exact .of_form "object" rfl rfl (by decide)
  | @further form place hform parts =>
    have hall : ∀ form ∈ furtherForms,
        leavesSign form = false ∧ typeText ⟨form, place, parts⟩ = "unknown" := by
      simp [furtherForms, leavesSign, typeText]
    exact .of_form "unknown" (hall form hform).2 (hall form hform).1 (by decide)

end JsxWidgets.Dart
