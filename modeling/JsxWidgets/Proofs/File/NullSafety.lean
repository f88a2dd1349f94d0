import JsxWidgets.Proofs.File.StateFields

/-!
# Null safety of the fields

What a generated class declares has to be accepted by a language with null safety. A parameter that
may be left out and has no default leaves its field null, so the type of that field has to allow
null, and no other type should. The same holds for the fields of the state, which start with a
literal or with null.

Three writers decide about this on their own. The constructor asks whether a property is required
and whether it has a constant default, the fields of the widget ask the same once more, and the
fields of the state ask whether the name of the inferred type is that of the literal. What ties them
together is said about the written text: a parameter is *bare* if nothing but its name is written
(`Parameter.isBare_iff`), and a type *allows null* if it is dynamic or carries the mark
(`Field.allowsNull_iff`). That a literal is of the declared type rests on the two tables of type
names, which agree on the names of literals (`TypeName.suits_ofText`).

The main statement, `nullSafe_ofAnalyses`, assumes nothing about the analyses that the file is made
from.
-/

namespace JsxWidgets.Dart

open Syntax

/-! ### Types that allow null -/

/-- Whether a written type carries the mark of types that allow null. -/
def IsMarked (type : String) : Prop := ∃ plain, type = plain ++ "?"

/-- Whether null is a value of a written type. -/
def AllowsNull (type : String) : Prop := type = "dynamic" ∨ IsMarked type

theorem getLast?_code_ne (t : TypeName) : t.code.toList.getLast? ≠ some '?' := by
  cases t <;> decide

theorem TypeName.code_eq_dynamic_iff (t : TypeName) : t.code = "dynamic" ↔ t = .dynamic := by
  cases t <;> decide

namespace Field

/-- The mark is written for the fields that have it, and is part of no type. -/
theorem isMarked_typeCode_iff (f : Field) : IsMarked f.typeCode ↔ f.nullable = true := by
  constructor
  · rintro ⟨plain, hplain⟩
    by_contra hnullable
    have hcode : f.type.code = plain ++ "?" := by
      rw [← hplain, Field.typeCode, if_neg hnullable]
      exact (String.append_empty).symm
    apply getLast?_code_ne f.type
    rw [hcode, String.toList_append]
    exact List.getLast?_concat
  · intro hnullable
    exact ⟨f.type.code, by rw [Field.typeCode, if_pos hnullable]⟩

/-- A type allows null if it is dynamic or marked; a dynamic type with a mark does not matter. -/
theorem allowsNull_iff (f : Field) :
    AllowsNull f.typeCode ↔ f.type = .dynamic ∨ f.nullable = true := by
  rw [AllowsNull, isMarked_typeCode_iff]
  by_cases hnullable : f.nullable = true
  · exact iff_of_true (Or.inr hnullable) (Or.inr hnullable)
  · have hcode : f.typeCode = f.type.code := by
      rw [Field.typeCode, if_neg hnullable]
      exact String.append_empty
    rw [hcode, TypeName.code_eq_dynamic_iff]

end Field

/-! ### Properties -/

namespace Parameter

/-- **A bare parameter**: nothing but its name is written, so that it may be left out and is null
then. -/
def IsBare (p : Parameter) : Prop := p.code = "this." ++ p.name

/-- Bare parameters are those that are neither required nor have a default. -/
theorem isBare_iff (p : Parameter) : p.IsBare ↔ p.required = false ∧ p.fallback = none := by
  rw [IsBare, Parameter.code]
  constructor
  · intro hcode
    have hchars := congrArg String.toList hcode
    by_cases hrequired : p.required = true
    · -- The word in front is longer than the prefix that the names share.
      rw [if_pos hrequired, String.toList_append, String.toList_append] at hchars
      have hlength := congrArg List.length hchars
      rw [List.length_append, List.length_append, Nat.add_right_cancel_iff] at hlength
      exact absurd hlength (by decide)
    · rw [if_neg hrequired] at hchars
      refine ⟨Bool.eq_false_iff.mpr hrequired, ?_⟩
      cases hfallback : p.fallback with
      | none => rfl
      | some v =>
        -- A default is written behind the name.
        rw [hfallback] at hchars
        have hlength := congrArg List.length hchars
        simp only [String.toList_append, List.length_append] at hlength
        have hmark : (" = ".toList).length = 3 := rfl
        omega
  · rintro ⟨hrequired, hfallback⟩
    rw [hrequired, hfallback]
    rfl

end Parameter

/-- **A parameter and a field that fit**: they are called the same, and the field allows null if the
parameter is bare. If it is not, the type of the field carries no mark. -/
structure Parameter.Fits (p : Parameter) (f : Field) : Prop where
  /-- The parameter sets the field. -/
  name : p.name = f.name
  /-- What may be left out may be null. -/
  bare : p.IsBare → AllowsNull f.typeCode
  /-- What is always set is not null, unless its type is dynamic. -/
  set : ¬ p.IsBare → f.typeCode = "dynamic" ∨ ¬ IsMarked f.typeCode

section Properties

variable {π : Type}

@[simp] theorem name_parameterOf (p : PropRecord π) : (parameterOf p).name = p.name := rfl

@[simp] theorem name_fieldOf (p : PropRecord π) : (fieldOf p).name = p.name := rfl

@[simp] theorem type_fieldOf (p : PropRecord π) : (fieldOf p).type = TypeName.ofText p.type := by
  rw [fieldOf]

/-- The parameter for a property is bare if there is neither a need nor a default for it. -/
theorem isBare_parameterOf_iff (p : PropRecord π) :
    (parameterOf p).IsBare ↔ p.required = false ∧ constantDefault? p = none := by
  rw [Parameter.isBare_iff, parameterOf]
  cases p.required with
  | true => exact iff_of_false (fun h => Bool.noConfusion h.1) fun h => Bool.noConfusion h.1
  | false => exact Iff.rfl

/-- The field for a property is marked under the same condition, unless its type is dynamic. -/
theorem nullable_fieldOf_iff (p : PropRecord π) :
    (fieldOf p).nullable = true ↔ (parameterOf p).IsBare ∧ (fieldOf p).type ≠ .dynamic := by
  have hnullable : (fieldOf p).nullable
      = (!p.required && (constantDefault? p).isNone && !(TypeName.ofText p.type).allowsNull) := by
    rw [fieldOf]
  rw [hnullable, type_fieldOf, isBare_parameterOf_iff, Bool.and_eq_true, Bool.and_eq_true,
    Bool.not_eq_true', Bool.not_eq_true', Option.isNone_iff_eq_none, TypeName.allowsNull,
    decide_eq_false_iff_not]

theorem fits_parameterOf (p : PropRecord π) : (parameterOf p).Fits (fieldOf p) := by
  refine ⟨(name_parameterOf p).trans (name_fieldOf p).symm, ?_, ?_⟩
  · intro hbare
    rw [Field.allowsNull_iff, nullable_fieldOf_iff]
    by_cases hdynamic : (fieldOf p).type = .dynamic
    · exact Or.inl hdynamic
    · exact Or.inr ⟨hbare, hdynamic⟩
  · intro hset
    right
    rw [Field.isMarked_typeCode_iff, nullable_fieldOf_iff]
    exact fun h => hset h.1

end Properties

/-! ### State -/

/-- Whether a literal is of a type. Neither callbacks nor dynamic types have literals of their own,
and null is of no type without a mark. -/
def TypeName.Suits : TypeName → Literal → Prop
  | .string, .text _ => True
  | .num, .int _ => True
  | .num, .real .. => True
  | .bool, .bool _ => True
  | .list, .array _ => True
  | .map, .object _ => True
  | _, _ => False

/-- The two tables of type names agree: what has the type with a name suits the type that the name
stands for. -/
theorem TypeName.suits_ofText {type : String} {v : Literal} (h : v.hasType type = true) :
    (TypeName.ofText type).Suits v := by
  -- the type fits the value, so it is one fixed word for each kind of value
  cases v with
  | null => exact Bool.noConfusion h
  | bool b =>
    obtain rfl : type = "boolean" := of_decide_eq_true h
    have htype : TypeName.ofText "boolean" = .bool := by decide
    rw [htype]
    exact trivial
  | int n | real negative n =>
    obtain rfl : type = "number" := of_decide_eq_true h
    have htype : TypeName.ofText "number" = .num := by decide
    rw [htype]
    exact trivial
  | text s =>
    obtain rfl : type = "string" := of_decide_eq_true h
    have htype : TypeName.ofText "string" = .string := by decide
    rw [htype]
    exact trivial
  | array items =>
    obtain rfl : type = "array" := of_decide_eq_true h
    have htype : TypeName.ofText "array" = .list := by decide
    rw [htype]
    exact trivial
  | object fields =>
    obtain rfl : type = "object" := of_decide_eq_true h
    have htype : TypeName.ofText "object" = .map := by decide
    rw [htype]
    exact trivial

/-- **A field of the state that is safe**: it starts with a literal of its declared type, or its
type allows null. -/
structure Field.Safe (f : Field) : Prop where
  /-- What the field starts with is a literal of the type that is written in front of it. -/
  started : ∀ code, f.StartsWith code →
    ∃ type : TypeName, ∃ v, f.typeCode = type.code ∧ code = v.dart ∧ type.Suits v
  /-- A field that starts with nothing may be null. -/
  unset : (∀ code, ¬ f.StartsWith code) → AllowsNull f.typeCode

section State

variable {name : String} {type : TypeName}

/-- A field without an initial value is safe if only the dynamic type goes without a mark. -/
theorem Field.safe_of_unset {initial : Initial} (hinitial : ∀ v, initial ≠ .value v) :
    Field.Safe ⟨name, type, !type.allowsNull, initial⟩ := by
  refine ⟨fun code hcode => ?_, fun _ => ?_⟩
  · obtain ⟨v, hv, -⟩ := Field.startsWith_iff.mp hcode
    exact absurd hv (hinitial v)
  · rw [Field.allowsNull_iff, TypeName.allowsNull]
    by_cases hdynamic : type = .dynamic
    · exact Or.inl hdynamic
    · exact Or.inr (by rw [decide_eq_false hdynamic]; rfl)

/-- A field with an initial value is safe if that suits its type. -/
theorem Field.safe_of_value {v : Literal} (hsuits : type.Suits v) :
    Field.Safe ⟨name, type, false, .value v⟩ := by
  refine ⟨fun code hcode => ?_, fun hnone => ?_⟩
  · obtain ⟨w, hw, rfl⟩ := Field.startsWith_iff.mp hcode
    obtain rfl : v = w := Initial.value.inj hw
    exact ⟨type, v, String.append_empty, rfl, hsuits⟩
  · exact absurd (Field.startsWith_iff.mpr ⟨v, rfl, rfl⟩) (hnone v.dart)

end State

theorem safe_stateFieldOf {π : Type} (var : StateVariable π) : (stateFieldOf var).Safe := by
  unfold stateFieldOf
  split
  · exact Field.safe_of_unset fun _ h => nomatch h
  · next value _ =>
    dsimp only
    split
    · next htype => exact Field.safe_of_value (TypeName.suits_ofText htype)
    · exact Field.safe_of_unset fun _ h => nomatch h

/-! ### Files -/

/-- **A file that is null safe** in what it declares for properties with the given names. -/
structure WidgetFile.NullSafe (f : WidgetFile) (names : List String) : Prop where
  /-- The constructor has one parameter for each property, in order. -/
  parameters : f.parameters.map (·.name) = names
  /-- The class has one field for each property, in order. -/
  fields : f.fields.map (·.name) = names
  /-- Each parameter fits the field that it sets. -/
  fit : List.Forall₂ Parameter.Fits f.parameters f.fields
  /-- The fields of the state are safe. -/
  state : ∀ field ∈ f.state.getD [], field.Safe

/-- A file is null safe if its parameters and its fields are made from the same properties, and the
fields of its state from state variables. -/
theorem WidgetFile.nullSafe_of_parts {π : Type} {f : WidgetFile} {props : List (PropRecord π)}
    {vars : List (StateVariable π)} (hparameters : f.parameters = props.map parameterOf)
    (hfields : f.fields = props.map fieldOf)
    (hstate : ∀ fields, f.state = some fields → fields = vars.map stateFieldOf) :
    f.NullSafe (props.map (·.name)) where
  parameters := by
    rw [hparameters, List.map_map]
    rfl
  fields := by
    rw [hfields, List.map_map]
    rfl
  fit := by
    rw [hparameters, hfields, List.forall₂_map_left_iff, List.forall₂_map_right_iff,
      List.forall₂_same]
    exact fun p _ => fits_parameterOf p
  state field hfield := by
    cases hkept : f.state with
    | none =>
      -- Without state there is no second class.
      rw [hkept] at hfield
      exact absurd hfield List.not_mem_nil
    | some fields =>
      rw [hkept, Option.getD_some, hstate fields hkept] at hfield
      obtain ⟨var, -, rfl⟩ := List.mem_map.mp hfield
      exact safe_stateFieldOf var

/-- Asking for names that can be those of fields keeps the properties with such names. -/
theorem filter_isIdentifier_names {π : Type} (props : List (PropRecord π)) :
    (props.map (·.name)).filter isIdentifier
      = (props.filter fun p => isIdentifier p.name).map (·.name) := by
  rw [List.filter_map]
  rfl

/-- The fields of the state are made from state variables with such names. -/
theorem state_ofAnalyses {π : Type} {s : ComponentStructure} {a : StateAnalysis π}
    {t : LoweredTree} {config : Config} {fields : List Field}
    (h : (WidgetFile.ofAnalyses s a t config).state = some fields) :
    fields = (a.stateVariables.filter fun v => isIdentifier v.name).map stateFieldOf := by
  rw [WidgetFile.ofAnalyses] at h
  dsimp only at h
  split at h
  · exact (Option.some.inj h).symm
  · cases h

/-- **Generated classes are null safe.** The widget class has a parameter and a field for each
property that has a name for a field, and no others. A field allows null exactly where its parameter
may be left out and has no default, dynamic types apart, and a field of the state starts with a
literal of its declared type or allows null. -/
theorem nullSafe_ofAnalyses {π : Type} (s : ComponentStructure) (a : StateAnalysis π)
    (t : LoweredTree) (config : Config) :
    (WidgetFile.ofAnalyses s a t config).NullSafe ((a.props.map (·.name)).filter isIdentifier) := by
  rw [filter_isIdentifier_names]
  exact WidgetFile.nullSafe_of_parts rfl rfl fun _ h => state_ofAnalyses h

end JsxWidgets.Dart
