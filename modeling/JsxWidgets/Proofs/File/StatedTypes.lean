import JsxWidgets.Dart.TypeName
import JsxWidgets.Proofs.File.TypesRead

/-!
# Types of fields and the types they stand for

The type of a field follows the outermost shape of the stated type (`ofType`), but it is found in
the text of that type: by a word, or by the first sign that the text shows. Every shape with a
counterpart leaves its sign in the text (`tells_ofType`). The types inside leave theirs as well, and
so the text misleads if the search meets a sign of another shape than the outermost one. The type
that is found is right exactly if the text does not mislead (`ofText_typeText_eq_iff`). This is said
of all types that the grammar reads (`isType_of_read`).
-/

namespace JsxWidgets.Dart

open Syntax Expression

/-! ### Outermost shapes -/

/-- The types that are words of the language. -/
def ofKeyword : String → TypeName
  | "string" => .string
  | "number" => .num
  | "boolean" => .bool
  | "object" => .map
  | _ => .dynamic

/-- The types that are names with arguments. -/
def ofReference (name : EntityName) : TypeName :=
  if name = .simple "Array" then .list
  else if name = .simple "Record" then .map
  else .dynamic

/-- **The type of a field by the outermost shape of the stated type**; parentheses are ignored. -/
def ofType : Node → TypeName
  | ⟨form, _, parts⟩ =>
    match form, parts with
    | .parenType, [inner] => ofType inner
    | .tupleItem, [_, type] => ofType type
    | .keyword word, _ => ofKeyword word
    | .reference, [⟨.entity name, _, _⟩, ⟨_, _, _ :: _⟩] => ofReference name
    | .arrayType, _ => .list
    | .fnType, _ => .callback
    | .objectType, _ => .map
    | _, _ => .dynamic

/-! ### Signs that mislead -/

/-- **A type is called like one that is known by a word.** -/
inductive IsNamedLikeWord : Node → Prop
  /-- The name is that word. -/
  | reference {place at₁ at₂ name} (h : (TypeName.ofWord? name.text).isSome = true) :
    IsNamedLikeWord ⟨.reference, place, [⟨.entity name, at₁, []⟩, ⟨.list, at₂, []⟩]⟩
  /-- It stands in parentheses. -/
  | paren {place inner} (h : IsNamedLikeWord inner) : IsNamedLikeWord ⟨.parenType, place, [inner]⟩
  /-- It is an item of a tuple. -/
  | item {place label type} (h : IsNamedLikeWord type) :
    IsNamedLikeWord ⟨.tupleItem, place, [label, type]⟩

/-- **A type whose text misleads**: it shows the sign of a shape that is not its outermost one. -/
inductive Misleads (type : Node) : Prop
  /-- An arrow shows in a type that is no function. -/
  | arrow (htype : ofType type ≠ .callback) (h : ShowsArrow type)
  /-- A type without a counterpart ends like an array or starts like one. -/
  | list (htype : ofType type = .dynamic) (h : EndsInBrackets type ∨ StartsAs "Array" type)
  /-- A type without a counterpart starts like an object. -/
  | record (htype : ofType type = .dynamic) (h : StartsAs "Record" type)
  /-- It is called like a type that has a word of its own. -/
  | word (h : IsNamedLikeWord type)

/-! ### Words -/

/-- The words for types are made of small letters and stand for types with a counterpart. -/
theorem ofWord?_eq_some {text : String} {t : TypeName} (h : TypeName.ofWord? text = some t) :
    IsBare text.toList ∧ text.toList.all Char.isLower = true ∧ t ≠ .dynamic := by
  obtain ⟨front, back, heq, -⟩ := List.lookup_eq_some_iff.mp h
  have hall : ∀ entry ∈ ([("string", .string), ("number", .num), ("boolean", .bool),
      ("function", .callback), ("array", .list), ("object", .map)] : List (String × TypeName)),
      IsBare entry.1.toList ∧ entry.1.toList.all Char.isLower = true ∧ entry.2 ≠ .dynamic := by
    decide
  exact hall (text, t) (heq ▸ List.mem_append_right _ List.mem_cons_self)

/-- A text with another character is no such word. -/
theorem ofWord?_eq_none {text : String} (h : ∃ c ∈ text.toList, c.isLower = false) :
    TypeName.ofWord? text = none := by
  obtain ⟨c, hc, hlower⟩ := h
  refine Option.eq_none_iff_forall_ne_some.mpr fun t hword => ?_
  rw [List.all_eq_true.mp (ofWord?_eq_some hword).2.1 c hc] at hlower
  cases hlower

theorem ofWord?_number (negative : Bool) (value : Binary64) :
    TypeName.ofWord? ((if negative then "-" else "") ++ value.positional) = none := by
  cases value with
  | infinite => cases negative <;> decide
  | finite m e =>
    obtain ⟨whole, places, hdigits, htext, -⟩ := Binary64.exists_positional_eq m e
    obtain ⟨c, cs, rfl⟩ := List.exists_cons_of_ne_nil hdigits.nonempty
    refine ofWord?_eq_none ⟨c, ?_, ?_⟩
    · rw [String.toList_append, htext]
      exact List.mem_append_right _ (List.mem_append_left _ List.mem_cons_self)
    · have hdigit := hdigits.digits c List.mem_cons_self
      rw [Char.isDigit, Bool.and_eq_true, decide_eq_true_eq, decide_eq_true_eq] at hdigit
      have hsmall : ¬c.val ≥ 'a'.val := fun hge =>
        absurd (UInt32.le_trans hge hdigit.2) (by decide)
      have hlower : c.isLower = (decide (c.val ≥ 'a'.val) && decide (c.val ≤ 'z'.val)) := rfl
      rw [hlower, decide_eq_false hsmall, Bool.false_and]

theorem IsNamedLikeWord.ofType_eq {type : Node} (h : IsNamedLikeWord type) :
    ofType type = .dynamic := by
  induction h with
  | reference => rfl
  | paren _ ih | item _ ih => exact ih

theorem IsNamedLikeWord.isSome_ofWord? {type : Node} (h : IsNamedLikeWord type) :
    (TypeName.ofWord? (typeText type)).isSome = true := by
  induction h with
  | reference h => exact h
  | paren _ ih | item _ ih => exact ih

/-! ### What a text tells -/

/-- **A text tells a type**: it is the word for it, or it shows the sign of it. -/
inductive Tells (text : String) : TypeName → Prop
  /-- It is the word. -/
  | word {t} (h : TypeName.ofWord? text = some t) : Tells text t
  /-- An arrow shows in it. -/
  | callback (hword : TypeName.ofWord? text = none) (h : ['=', '>'] <:+: text.toList) :
    Tells text .callback
  /-- It ends like an array or starts like one. -/
  | list (hword : TypeName.ofWord? text = none)
    (h : ['[', ']'] <:+ text.toList ∨ "Array".toList ++ ['<'] <+: text.toList) : Tells text .list
  /-- It starts like an object and is no array. -/
  | map (hword : TypeName.ofWord? text = none) (h : "Record".toList ++ ['<'] <+: text.toList)
    (hlist : ¬(['[', ']'] <:+ text.toList ∨ "Array".toList ++ ['<'] <+: text.toList)) :
    Tells text .map
  /-- It is no word. -/
  | dynamic (hword : TypeName.ofWord? text = none) : Tells text .dynamic

theorem isWord_array : Term.IsWord "Array" := ⟨'A', _, rfl, by decide, by decide⟩

theorem isWord_record : Term.IsWord "Record" := ⟨'R', _, rfl, by decide, by decide⟩

/-- A name with arguments tells what it is. -/
theorem tells_reference {place at₁ at₂ : Place} {name : EntityName} {arg : Node} {args : List Node}
    (h : TextShows ⟨.reference, place, [⟨.entity name, at₁, []⟩, ⟨.list, at₂, arg :: args⟩]⟩) :
    Tells (typeText ⟨.reference, place, [⟨.entity name, at₁, []⟩, ⟨.list, at₂, arg :: args⟩]⟩)
      (ofReference name) := by
  -- the arguments bring a bracket into the text, and no word has one
  have hword : TypeName.ofWord? (typeText
      ⟨.reference, place, [⟨.entity name, at₁, []⟩, ⟨.list, at₂, arg :: args⟩]⟩) = none := by
    refine ofWord?_eq_none ⟨'<', ?_, by decide⟩
    rw [typeText]
    · simp
    · simp
  rw [ofReference]
  split_ifs with harray hrecord
  · subst harray
    exact .list hword (Or.inr ((h.start "Array" isWord_array).mpr .reference))
  · subst hrecord
    refine .map hword ((h.start "Record" isWord_record).mpr .reference) ?_
    rintro (hends | hstarts)
    · cases h.brackets.mp hends with
      | last hform => exact absurd hform (by decide)
    · exact absurd ((h.start "Array" isWord_array).mp hstarts).name_eq (by decide)
  · exact .dynamic hword

/-- **The text of a type tells what it is**, unless it is only called like a type with a word of its
own. -/
theorem tells_ofType {type : Node} (h : IsType type) :
    Tells (typeText type) (ofType type) ∨ IsNamedLikeWord type := by
  induction h with
  -- the keywords are finitely many, so they are checked one by one
  | @keyword word place hword =>
    have hall : ∀ word ∈ typeKeywords,
        TypeName.ofWord? (if plainTypeWords.contains word then word else "unknown") =
          if ofKeyword word = .dynamic then none else some (ofKeyword word) := by
      decide
    have htext := hall word hword
    refine Or.inl ?_
    by_cases hdynamic : ofKeyword word = .dynamic
    · rw [if_pos hdynamic] at htext
      exact (show ofType ⟨.keyword word, place, []⟩ = _ from hdynamic) ▸ .dynamic htext
    · rw [if_neg hdynamic] at htext
      exact .word htext
  -- without arguments the text is the name alone, which may be a word of the table
  | @reference place at₁ at₂ name args hname hargs =>
    cases args with
    | nil =>
      cases hword : TypeName.ofWord? name.text with
      | none => exact Or.inl (.dynamic hword)
      | some t => exact Or.inr (.reference (Option.isSome_of_eq_some hword))
    | cons => exact Or.inl (tells_reference (textShows (.reference hname hargs)))
  | array h =>
    refine Or.inl (.list (ofWord?_eq_none ⟨'[', by simp [typeText], by decide⟩) (Or.inl ?_))
    exact (textShows (.array h)).brackets.mpr .array
  | @joined form place first second rest hform =>
    have hblank : ' ' ∈ (typeText ⟨form, place, first :: second :: rest⟩).toList := by
      rcases hform with rfl | rfl <;> simp [typeText, typeTexts]
    have hdynamic : ofType ⟨form, place, first :: second :: rest⟩ = .dynamic := by
      rcases hform with rfl | rfl <;> rfl
    exact Or.inl (hdynamic ▸ .dynamic (ofWord?_eq_none ⟨' ', hblank, by decide⟩))
  | text => exact Or.inl (.dynamic (ofWord?_eq_none ⟨'"', by simp [typeText], by decide⟩))
  | number => exact Or.inl (.dynamic (ofWord?_number _ _))
  | truth value =>
    have hword : TypeName.ofWord? (if value then "true" else "false") = none := by
      cases value <;> decide
    exact Or.inl (.dynamic hword)
  | literal =>
    exact Or.inl (.dynamic (by decide : TypeName.ofWord? "literal" = none))
  -- what shows as an arrow is read as a callback before anything else
  | @function place _ params typeParams h =>
    have hfunction : IsType ⟨.fnType, place, [params, typeParams, _]⟩ :=
      .function params typeParams h
    have hshows := (textShows hfunction).arrow.mpr .function
    have hmem := hshows.subset List.mem_cons_self
    exact Or.inl (.callback (ofWord?_eq_none ⟨'=', hmem, by decide⟩) hshows)
  | paren _ ih => exact ih.imp_right .paren
  | tuple => exact Or.inl (.dynamic (ofWord?_eq_none ⟨'[', by simp [typeText], by decide⟩))
  | item _ _ ih => exact ih.imp_right .item
  | object => exact Or.inl (.word (by decide : TypeName.ofWord? "object" = some .map))
  | @further form place hform parts =>
    have hall : ∀ form ∈ furtherForms,
        typeText ⟨form, place, parts⟩ = "unknown" ∧ ofType ⟨form, place, parts⟩ = .dynamic := by
      simp [furtherForms, typeText, ofType]
    obtain ⟨htext, hdynamic⟩ := hall form hform
    rw [htext, hdynamic]
    exact Or.inl (.dynamic (by decide))

/-! ### The law -/

theorem trim_typeText {type : Node} (h : TextShows type) :
    Text.trim (typeText type) = typeText type := by
  obtain ⟨c, hc, hfirst⟩ := h.first
  obtain ⟨d, hd, hlast, -⟩ := h.last
  refine Text.trim_eq_self (fun x hx => ?_) fun x hx => ?_
  · rw [charsOf] at hc
    rw [hc] at hx
    cases hx
    exact hfirst
  · rw [charsOf] at hd
    rw [hd] at hx
    cases hx
    exact hlast

open Classical in
/-- The type for a text that is no word, by the signs that show in it. -/
theorem ofShape_typeText {type : Node} (h : TextShows type) :
    TypeName.ofShape (typeText type) =
      if ShowsArrow type then .callback
      else if EndsInBrackets type ∨ StartsAs "Array" type then .list
      else if StartsAs "Record" type then .map
      else .dynamic := by
  have harrow : Text.contains "=>" (typeText type) = true ↔ ShowsArrow type :=
    Text.contains_iff.trans h.arrow
  have hlist : (Text.endsWith "[]" (typeText type) || Text.startsWith "Array<" (typeText type)) =
      true ↔ EndsInBrackets type ∨ StartsAs "Array" type := by
    rw [Bool.or_eq_true, Text.endsWith_iff, Text.startsWith_iff]
    exact or_congr h.brackets (h.start "Array" isWord_array)
  have hmap : Text.startsWith "Record<" (typeText type) = true ↔ StartsAs "Record" type :=
    Text.startsWith_iff.trans (h.start "Record" isWord_record)
  rw [TypeName.ofShape, if_congr harrow rfl (if_congr hlist rfl (if_congr hmap rfl rfl))]

/-- A word is the type that it names, unless a type is only called like that. -/
theorem eq_ofType_iff_of_word {type : Node} (h : IsType type) {t : TypeName}
    (hword : TypeName.ofWord? (typeText type) = some t) : t = ofType type ↔ ¬Misleads type := by
  obtain ⟨hbare, -, ht⟩ := ofWord?_eq_some hword
  -- A word shows no arrow and has a counterpart, so all that is left is to be called like it.
  have harrow : ¬ShowsArrow type := mt (textShows h).arrow.mpr hbare.not_arrow
  rcases tells_ofType h with htells | hnamed
  · have htype : t = ofType type := by
      generalize ofType type = type' at htells
      cases htells with
      | word h => exact Option.some.inj (hword.symm.trans h)
      | callback h | list h | map h | dynamic h => rw [h] at hword; cases hword
    refine iff_of_true htype fun hmisleads => ?_
    cases hmisleads with
    | arrow _ h => exact harrow h
    | list hdynamic | record hdynamic => exact ht (htype.trans hdynamic)
    | word h => exact ht (htype.trans h.ofType_eq)
  · exact iff_of_false (hnamed.ofType_eq ▸ ht) (not_not_intro (.word hnamed))

/-- A text that is no word gives the type whose sign it shows first. -/
theorem ofShape_typeText_eq_iff {type : Node} (h : IsType type)
    (hword : TypeName.ofWord? (typeText type) = none) :
    TypeName.ofShape (typeText type) = ofType type ↔ ¬Misleads type := by
  have hshows := textShows h
  have hnamed : ¬IsNamedLikeWord type := fun hnamed => by
    have hsome := hnamed.isSome_ofWord?
    rw [hword] at hsome
    cases hsome
  have htells := (tells_ofType h).resolve_right hnamed
  rw [ofShape_typeText hshows]
  -- A text that misleads is met with a sign of another type first. A text that does not shows its
  -- own sign, and none of those that are looked for before it.
  refine ⟨fun heq hmisleads => ?_, fun hright => ?_⟩
  · cases hmisleads with
    | arrow htype h =>
      rw [if_pos h] at heq
      exact htype heq.symm
    | list htype h | record htype h =>
      rw [htype, if_pos h] at heq
      split_ifs at heq
    | word h => exact hnamed h
  · have harrow : ofType type ≠ .callback → ¬ShowsArrow type :=
      fun htype h => hright (.arrow htype h)
    have hlist : ofType type = .dynamic → ¬(EndsInBrackets type ∨ StartsAs "Array" type) :=
      fun htype h => hright (.list htype h)
    have hrecord : ofType type = .dynamic → ¬StartsAs "Record" type :=
      fun htype h => hright (.record htype h)
    have hsign := or_congr hshows.brackets (hshows.start "Array" isWord_array)
    generalize ofType type = type' at htells harrow hlist hrecord
    cases htells with
    | word h => rw [h] at hword; cases hword
    | callback _ h => rw [if_pos (hshows.arrow.mp h)]
    | list _ h => rw [if_neg (harrow nofun), if_pos (hsign.mp h)]
    | map _ h hnot =>
      rw [if_neg (harrow nofun), if_neg (mt hsign.mpr hnot),
        if_pos ((hshows.start "Record" isWord_record).mp h)]
    | dynamic => rw [if_neg (harrow nofun), if_neg (hlist rfl), if_neg (hrecord rfl)]

/-- **The type of a field is that of the outermost shape of the stated type**, exactly if its text
does not mislead. -/
theorem ofText_typeText_eq_iff {type : Node} (h : IsType type) :
    TypeName.ofText (typeText type) = ofType type ↔ ¬Misleads type := by
  rw [TypeName.ofText, trim_typeText (textShows h)]
  cases hword : TypeName.ofWord? (typeText type) with
  | some t => exact eq_ofType_iff_of_word h hword
  | none => exact ofShape_typeText_eq_iff h hword

/-- The state in front of a type. -/
def beforeType (text : String) : ReadState :=
  { token := (⟨text.toList, 1⟩ : Cursor).token, faults := [], scope := {},
    dialect := ⟨true, true⟩ }

/-- The type `Map<string, number[]>`. -/
def numberTable : Node :=
  ⟨.reference, 1, [.leaf (.entity (.simple "Map")) 1,
    .list [.leaf (.keyword "string") 5, ⟨.arrayType, 13, [.leaf (.keyword "number") 13]⟩]]⟩

theorem isType_numberTable : IsType numberTable := by
  have hread : ∃ s', (grammar 12).type (beforeType "Map<string, number[]>") = .ok numberTable s' :=
    ⟨_, rfl⟩
  refine isType_of_read hread.choose_spec fun m hm name hname => ?_
  -- The only name is that of the table.
  have hnodes : numberTable.nodes.map Node.form = [.reference, .entity (.simple "Map"), .list,
      .keyword "string", .arrayType, .keyword "number"] := rfl
  have hform : m.form ∈ numberTable.nodes.map Node.form := List.mem_map_of_mem hm
  rw [hnodes, hname] at hform
  obtain rfl : name = .simple "Map" := by simpa using hform
  exact ⟨'M', _, rfl, by decide, by decide⟩

/-- A table is dynamic, and the brackets of its argument do not make it a list. -/
theorem not_misleads_numberTable :
    IsType numberTable ∧ TypeName.ofText (typeText numberTable) = .dynamic ∧
      ¬Misleads numberTable :=
  ⟨isType_numberTable, by decide, (ofText_typeText_eq_iff isType_numberTable).mp (by decide)⟩

/-- The type `(() => void)[]`. -/
def callbackList : Node :=
  ⟨.arrayType, 1, [⟨.parenType, 1, [⟨.fnType, 2, [.list [], .list [],
    .leaf (.keyword "void") 8]⟩]⟩]⟩

/-- A list of functions is taken for a function. -/
theorem ofText_callbackList :
    (∃ s', (grammar 12).type (beforeType "(() => void)[]") = .ok callbackList s') ∧
      IsType callbackList ∧ ofType callbackList = .list ∧
      TypeName.ofText (typeText callbackList) = .callback :=
  ⟨⟨_, rfl⟩, .array (.paren (.function _ _ (.keyword (by decide)))), rfl, by decide⟩

end JsxWidgets.Dart
